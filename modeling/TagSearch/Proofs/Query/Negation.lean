import TagSearch.Proofs.Query.Filter
import TagSearch.Proofs.Query.Single

/-! A metatag with a minus sign. Its comparator is the inverse one, and it finds exactly the entities that the metatag
without the sign does not find. -/
namespace TagSearch

namespace MetaCondition

/-- The condition with the inverse comparator. -/
def inverse (c : MetaCondition) : MetaCondition := { c with comparator := c.comparator.inverse }

end MetaCondition

lemma Comparator.ofIntegers_inverse (c : Comparator) (a b : Int) : c.inverse.OfIntegers a b ↔ ¬ c.OfIntegers a b := by
  cases c with
  | eq => exact Iff.rfl
  | ne => exact not_not.symm
  | lt => exact Int.not_lt.symm
  | le => exact Int.not_le.symm
  | gt => exact Int.not_lt.symm
  | ge => exact Int.not_le.symm
  | like => exact (Bool.not_eq_true _).symm.to_iff
  | notLike => exact (Bool.not_eq_false _).symm.to_iff

namespace Store

variable {s : Store} {e : Entity} {kind : Kind} {c : MetaCondition}

lemma meets_column {column : Sql.Column} {v : Metatag.Value}
    (hrow : (Metatag.descriptor? c.key).map Metatag.Descriptor.target = some (.column column))
    (hv : e.column? column = some v) : s.Meets e c ↔ c.comparator.OfValues v c.value := by
  simp only [Meets, hrow, hv, Option.some.injEq, exists_eq_left']

/-- No column of a row is left blank, so a comparison of a column and its inverse are never both false. -/
lemma meets_column_inverse {column : Sql.Column} {v : Metatag.Value}
    (hrow : (Metatag.descriptor? c.key).map Metatag.Descriptor.target = some (.column column))
    (hv : e.column? column = some v)
    (hinverse : c.comparator.inverse.OfValues v c.value ↔ ¬ c.comparator.OfValues v c.value) :
    s.Meets e c.inverse ↔ ¬ s.Meets e c :=
  (meets_column (c := c.inverse) hrow hv).trans (hinverse.trans (not_congr (meets_column hrow hv)).symm)

/-- The inverse of a condition that an excluded metatag can have holds exactly when the condition does not. -/
theorem meets_inverse (h : Metatag.Reads kind true c) (he : e.kind = kind) :
    s.Meets e c.inverse ↔ ¬ s.Meets e c := by
  have hinteger : ∀ (c : Comparator) (a b : Int64),
      c.inverse.OfValues (.integer a) (.integer b) ↔ ¬ c.OfValues (.integer a) (.integer b) := by
    intro c a b
    rw [ofValues_integers, ofValues_integers, Comparator.ofIntegers_inverse]
  have hpattern : ∀ a b : String, Comparator.OfValues .like (.text a) (.pattern b) ↔
      ¬ Comparator.OfValues .notLike (.text a) (.pattern b) :=
    fun a b => (Bool.not_eq_false _).symm.to_iff
  -- an image has every column, and a collection has those of the metatags for all kinds
  cases h with
  | uploader kind excluded user =>
    cases e with
    | image i => exact meets_column_inverse rfl rfl not_not.symm
    | collection c => exact meets_column_inverse rfl rfl not_not.symm
  | rating excluded text =>
    cases e with
    | image i => exact meets_column_inverse rfl rfl not_not.symm
    | collection c => cases he
  | score excluded n c =>
    cases e with
    | image i => exact meets_column_inverse rfl rfl (hinteger c _ n)
    | collection c => cases he
  | totalScore excluded n c =>
    cases e with
    | image i => exact meets_column_inverse rfl rfl (hinteger c _ n)
    | collection c => cases he
  | scoreVoters excluded n c =>
    cases e with
    | image i => exact meets_column_inverse rfl rfl (hinteger c _ n)
    | collection c => cases he
  | inCollection excluded b =>
    cases e with
    | image i => exact not_not.symm
    | collection c => cases he
  | tagCount excluded n c =>
    cases e with
    | image i =>
      have hcount : ∀ c, s.Meets (.image i) ⟨"tagcount", .integer n, c⟩ ↔
          c.OfIntegers (s.linksOf i.id).length n.toInt := by
        intro c
        constructor
        · rintro ⟨m, hm, h⟩
          cases hm
          exact h
        · exact fun h => ⟨n, rfl, h⟩
      rw [MetaCondition.inverse, hcount, hcount, Comparator.ofIntegers_inverse]
    | collection c => cases he
  | name kind excluded pattern =>
    cases e with
    | image i => exact meets_column_inverse rfl rfl (hpattern i.name pattern)
    | collection c => exact meets_column_inverse rfl rfl (hpattern c.name pattern)
  | location excluded pattern =>
    cases e with
    | image i => exact meets_column_inverse rfl rfl (hpattern i.location pattern)
    | collection c => cases he

/-- What a search of a kind without a window shows, if it is answered. -/
def Shows (s : Store) (predicates : List Predicate) (ids : List UInt64) : Kind → Prop
  | .image => ∀ page, (Search.images predicates 0 0 (Database.ready s).source).result = .ok page →
      page.items.map ImageSummary.id = ids
  | .collection => ∀ page, (Search.collections predicates 0 0 (Database.ready s).source).result = .ok page →
      page.items.map CollectionSummary.id = ids

variable {predicates : List Predicate} {ids : List UInt64}

lemma shows_of_found (hs : s.Consistent) (h : s.found kind predicates = .ok ids) : s.Shows predicates ids kind := by
  cases kind with
  | image => exact fun page hpage => Except.ok.inj ((found_of_images hs hpage).symm.trans h)
  | collection => exact fun page hpage => Except.ok.inj ((found_of_collections hs hpage).symm.trans h)

lemma exists_entity_of_mem_found (hs : s.Consistent) (h : s.found kind predicates = .ok ids) {id : UInt64}
    (hid : id ∈ ids) : ∃ e, s.Has e ∧ e.kind = kind ∧ e.id = id := by
  obtain ⟨plan, hplan, rfl⟩ := found_eq_ok.mp h
  obtain ⟨e, hhas, he, _, hid⟩ := (mem_listed hs).mp hid
  exact ⟨e, hhas, he.trans (Plan.kind_of_ofPredicates hplan), hid⟩

lemma mem_found_complement (hs : s.Consistent) {included excluded : List Predicate} {matched rest : List UInt64}
    (hincluded : Predicate.AllInterpreted kind included) (hexcluded : Predicate.AllInterpreted kind excluded)
    (hmatched : s.found kind included = .ok matched) (hrest : s.found kind excluded = .ok rest)
    (hopposite : ∀ e, e.kind = kind → ((∀ p ∈ excluded, s.Satisfies e p) ↔ ¬ ∀ p ∈ included, s.Satisfies e p))
    {id : UInt64} : id ∈ rest ↔ (∃ e, s.Has e ∧ e.kind = kind ∧ e.id = id) ∧ id ∉ matched := by
  constructor
  · intro hid
    obtain ⟨e, hhas, he, rfl⟩ := exists_entity_of_mem_found hs hrest hid
    have hsat := (hopposite e he).mp ((mem_found hs hexcluded hrest hhas he).mp hid)
    exact ⟨⟨e, hhas, he, rfl⟩, fun hid => hsat ((mem_found hs hincluded hmatched hhas he).mp hid)⟩
  · rintro ⟨⟨e, hhas, he, rfl⟩, hid⟩
    refine (mem_found hs hexcluded hrest hhas he).mpr ((hopposite e he).mpr fun hsat => hid ?_)
    exact (mem_found hs hincluded hmatched hhas he).mpr hsat

end Store

namespace Query

variable {kind : Kind} {source : Source} {d : Metatag.Descriptor} {predicates : List Predicate}

lemma parse_metatag_eq_ok {raw name value : String} {comparator : Comparator} {t : Token} (h : tokenize raw = [t])
    (hform : normalize t.text = .metatag name comparator value) (hd : Metatag.lookup? name kind = some d) :
    (parse raw kind source).result = .ok predicates ↔
      ∃ p, (Metatag.interpret name comparator value t.negated kind source).result = .ok p ∧ predicates = [p] := by
  rw [result_parse_metatag h hform hd]
  cases (Metatag.interpret name comparator value t.negated kind source).result with
  | error e => simp [Except.map]
  | ok p => simp [Except.map, eq_comm]

/-- A metatag parses with a minus sign if it parses without one and its row of the registry can be excluded. -/
lemma parse_minus_isOk {m : String} (hbare : IsBare m.toList) (hmeta : Token.IsMetatag kind d ⟨m, false⟩) :
    (∃ excluded, (parse ("-" ++ m) kind source).result = .ok excluded) ↔
      d.negatable = true ∧ ∃ included, (parse m kind source).result = .ok included := by
  obtain ⟨name, comparator, value, hform, hd⟩ := hmeta
  have hplain : (∃ included, (parse m kind source).result = .ok included) ↔
      ∃ p, (Metatag.interpret name comparator value false kind source).result = .ok p := by
    simp only [parse_metatag_eq_ok (tokenize_plain hbare) hform hd]
    exact ⟨fun ⟨_, p, hp, _⟩ => ⟨p, hp⟩, fun ⟨p, hp⟩ => ⟨_, p, hp, rfl⟩⟩
  have hminus : (∃ excluded, (parse ("-" ++ m) kind source).result = .ok excluded) ↔
      ∃ p, (Metatag.interpret name comparator value true kind source).result = .ok p := by
    simp only [parse_metatag_eq_ok (tokenize_minus hbare) hform hd]
    exact ⟨fun ⟨_, p, hp, _⟩ => ⟨p, hp⟩, fun ⟨p, hp⟩ => ⟨_, p, hp, rfl⟩⟩
  rw [hplain, hminus, Metatag.interpret_isOk hd, Metatag.interpret_isOk hd]
  simp

/-- A metatag with and without a minus sign has inverse conditions. -/
lemma parse_minus {m : String} (hbare : IsBare m.toList) (hmeta : Token.IsMetatag kind d ⟨m, false⟩)
    {included excluded : List Predicate} (hincluded : (parse m kind source).result = .ok included)
    (hexcluded : (parse ("-" ++ m) kind source).result = .ok excluded) :
    ∃ c, Metatag.Reads kind true c ∧ included = [.ofCondition c.inverse false] ∧
      excluded = [.ofCondition c true] := by
  obtain ⟨name, comparator, value, hform, hd⟩ := hmeta
  -- both signs look up the same row and read the same value
  obtain ⟨p, hp, rfl⟩ := (parse_metatag_eq_ok (tokenize_plain hbare) hform hd).mp hincluded
  obtain ⟨q, hq, rfl⟩ := (parse_metatag_eq_ok (tokenize_minus hbare) hform hd).mp hexcluded
  obtain ⟨_, v, hd', hv, _, rfl⟩ := Metatag.interpret_eq_ok hp
  obtain rfl := Option.some.inj (hd.symm.trans hd')
  obtain ⟨_, w, hd', hw, hnegatable, rfl⟩ := Metatag.interpret_eq_ok hq
  obtain rfl := Option.some.inj (hd.symm.trans hd')
  obtain rfl := Except.ok.inj (hv.symm.trans hw)
  refine ⟨_, Metatag.reads_of_registry (Metatag.mem_registry_of_lookup? hd) (Metatag.appliesTo_of_lookup? hd)
    hnegatable (Metatag.readValue_admits hv) comparator, ?_, rfl⟩
  simp [MetaCondition.inverse, Metatag.signed]

/-- A metatag with a minus sign finds the complement of what the metatag finds. The sign is refused only for a metatag
that cannot be excluded, so this is said of every other row of the registry and every value it reads. -/
theorem negated_finds_complement {s : Store} {m : String} (hs : s.Reachable) (hbare : IsBare m.toList)
    (hmeta : Token.IsMetatag kind d ⟨m, false⟩) :
    ((∃ excluded, (parse ("-" ++ m) kind (Database.ready s).source).result = .ok excluded) ↔
        d.negatable = true ∧ ∃ included, (parse m kind (Database.ready s).source).result = .ok included) ∧
      ∀ included excluded, (parse m kind (Database.ready s).source).result = .ok included →
        (parse ("-" ++ m) kind (Database.ready s).source).result = .ok excluded →
          ∃ matched rest, s.found kind included = .ok matched ∧ s.found kind excluded = .ok rest ∧
            (∀ id, id ∈ rest ↔ (∃ e, s.Has e ∧ e.kind = kind ∧ e.id = id) ∧ id ∉ matched) ∧
            s.Shows included matched kind ∧ s.Shows excluded rest kind := by
  refine ⟨parse_minus_isOk hbare hmeta, fun included excluded hincluded hexcluded => ?_⟩
  have hmeets : ∀ e : Entity, e.kind = kind →
      ((∀ p ∈ excluded, s.Satisfies e p) ↔ ¬ ∀ p ∈ included, s.Satisfies e p) := by
    obtain ⟨c, hreads, rfl, rfl⟩ := parse_minus hbare hmeta hincluded hexcluded
    intro e he
    rw [List.forall_mem_singleton, List.forall_mem_singleton, Store.satisfies_of_condition rfl,
      Store.satisfies_of_condition rfl, Store.meets_inverse hreads he, not_not]
  have hplain := allInterpreted_of_parse hincluded
  have hminus := allInterpreted_of_parse hexcluded
  obtain ⟨matched, hmatched⟩ := Store.exists_found (s := s) hplain
  obtain ⟨rest, hrest⟩ := Store.exists_found (s := s) hminus
  exact ⟨matched, rest, hmatched, hrest,
    fun id => Store.mem_found_complement hs.consistent hplain hminus hmatched hrest hmeets,
    Store.shows_of_found hs.consistent hmatched, Store.shows_of_found hs.consistent hrest⟩

theorem minus_score_of_sample :
    ∃ included excluded matched rest,
      (parse "score:>3" .image (Database.ready Store.sample).source).result = .ok included ∧
      (parse "-score:>3" .image (Database.ready Store.sample).source).result = .ok excluded ∧
      Store.sample.found .image included = .ok matched ∧ Store.sample.found .image excluded = .ok rest ∧
      ∀ id, id ∈ rest ↔ (∃ e, Store.sample.Has e ∧ e.kind = .image ∧ e.id = id) ∧ id ∉ matched := by
  have hbare : IsBare "score:>3".toList := ⟨by decide, 's', "core:>3".toList, by decide⟩
  have hincluded : (parse "score:>3" .image (Database.ready Store.sample).source).result =
    .ok [.ofCondition ⟨"score", .integer 3, .gt⟩ false] := rfl
  have hexcluded : (parse ("-" ++ "score:>3") .image (Database.ready Store.sample).source).result =
    .ok [.ofCondition ⟨"score", .integer 3, .le⟩ true] := rfl
  have hmeta : Token.IsMetatag .image ⟨"score", ["averagescore"], .column .averageScore, .integer, .asWritten, true,
    .images⟩ ⟨"score:>3", false⟩ := ⟨"score", .gt, "3", rfl, rfl⟩
  obtain ⟨_, hcomplement⟩ := negated_finds_complement (Store.Reachable.empty.run _) hbare hmeta
  obtain ⟨matched, rest, hmatched, hrest, hmem, _⟩ := hcomplement _ _ hincluded hexcluded
  exact ⟨_, _, matched, rest, hincluded, hexcluded, hmatched, hrest, hmem⟩

end Query
end TagSearch
