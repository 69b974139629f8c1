import TagSearch.Proofs.Query.Append
import TagSearch.Proofs.Query.Resolution

/-! An alias searches like the tag that it stands for. One of them brings its target along and the other is the target,
but the plans ask for the same keys. -/
namespace TagSearch.Query
open Sql

/-- A tag that stands for another one, which stands for itself. -/
structure IsAliasOf (a t : Tag) : Prop where
  isAlias : a.isAlias = true
  target : a.aliased = t.id
  plain : t.isAlias = false

section Targets

variable {s : Store} {a t : Tag} {found : List Predicate} {negated : Bool} {p : Predicate}

/-- A tag is found by its name. -/
lemma predicate_of_mem (hs : s.Consistent) (ha : a ∈ s.tags) (excluded : Bool) :
    Request.predicate s.tags ⟨a.name, excluded⟩ = .ofTag a excluded :=
  predicate_of_names hs.tagNames ⟨ha, rfl⟩

/-- The row of a tag is found by its id. -/
lemma takeRow_id (hs : s.Consistent) (ht : t ∈ s.tags) {tag : Tag} (h : (takeRow Tag.id t.id s.tags).1 = some tag) :
    tag = t :=
  Option.some.inj (h.symm.trans ((takeRow_table hs.tagIds.nodup).mpr ⟨ht, rfl⟩))

/-- What is wanted with one more tag. -/
lemma wantedTargets_concat (tag : Tag) (negated : Bool) (found : List Predicate) :
    wantedTargets (found ++ [.ofTag tag negated]) =
      firstOfKey Prod.fst (((found.filter pointsElsewhere).map (fun p => (p.aliased, p.excluded)) ++
        if tag.isAlias ∧ tag.aliased ≠ 0 then [(tag.aliased, negated)] else []).filter fun target =>
          !((found.filter fun p => p.known).map (fun p => p.id) ++ [tag.id]).contains target.1) := by
  by_cases h : tag.isAlias ∧ tag.aliased ≠ 0
  · simp [wantedTargets, pointsElsewhere, Predicate.ofTag, h]
  · simp [wantedTargets, pointsElsewhere, Predicate.ofTag, h]

/-- Naming the target in place of the alias, one wants the same other targets. The target itself may be wanted by the
alias, and by other aliases of it. -/
lemma wantedTargets_alias (h : IsAliasOf a t) (hne : t.id ≠ 0)
    (hother : ∀ q ∈ found, pointsElsewhere q = true → q.aliased ≠ a.id) :
    (wantedTargets (found ++ [.ofTag a negated])).filter (fun target => target.1 ≠ t.id) =
      wantedTargets (found ++ [.ofTag t negated]) := by
  rw [wantedTargets_concat, wantedTargets_concat, if_pos ⟨h.isAlias, h.target ▸ hne⟩, if_neg (by simp [h.plain]),
    h.target, List.append_nil, ← firstOfKey_filter Prod.fst fun id => decide (id ≠ t.id), List.filter_filter,
    List.filter_append]
  have hlast : [(t.id, negated)].filter (fun target => decide (target.1 ≠ t.id) &&
      !((found.filter fun p => p.known).map (fun p => p.id) ++ [a.id]).contains target.1) = [] := by
    simp
  rw [hlast, List.append_nil]
  refine congrArg (firstOfKey Prod.fst) (List.filter_congr fun target hmem => ?_)
  obtain ⟨q, hq, rfl⟩ := List.mem_map.mp hmem
  have hne' : q.aliased ≠ a.id := hother q (List.mem_filter.mp hq).1 (List.mem_filter.mp hq).2
  by_cases heq : q.aliased = t.id
  · simp [heq]
  · simp [heq, hne']

/-- The predicates of a query with one more tag, of which only the tags may want a target. -/
def withTag (rows : List Tag) (placed found : List Predicate) (tag : Tag) (negated : Bool) : List Predicate :=
  placed ++ ([.ofTag tag negated] ++ foundTargets (wantedTargets (found ++ [.ofTag tag negated])) rows)

variable {placed : List Predicate}

lemma parts_withTag (kind : Kind) (rows : List Tag) (tag : Tag) :
    Plan.parts kind (withTag rows placed found tag negated) = Plan.parts kind placed := by
  refine Plan.parts_append_plain fun p hp => ?_
  rcases List.mem_append.mp hp with hp | hp
  · rw [List.mem_singleton.mp hp]
    rfl
  · exact (isTarget_of_mem hp).plain

/-- What points to a tag asks like the tag. -/
lemma asksLike_of_pointsElsewhere (hp : p.condition = none) (hpoints : pointsElsewhere p = true)
    (htarget : p.aliased = t.id) (hplain : t.isAlias = false) : (Predicate.ofTag t p.excluded).AsksLike p := by
  simp only [pointsElsewhere, Bool.and_eq_true] at hpoints
  refine ⟨hp, hpoints.1.1, rfl, ?_⟩
  simp [Predicate.tagKey, Predicate.ofTag, hpoints.1.2, htarget, hplain]

/-- A target that is wanted next to the alias is wanted next to its target, or it is that target. -/
lemma mem_foundTargets_alias (hs : s.Consistent) (ht : t ∈ s.tags) (h : IsAliasOf a t) (hne : t.id ≠ 0)
    (hfound : ∀ q ∈ found, q.condition = none)
    (hother : ∀ q ∈ found, pointsElsewhere q = true → q.aliased ≠ a.id)
    (hp : p ∈ foundTargets (wantedTargets (found ++ [.ofTag a negated])) s.tags) :
    p ∈ foundTargets (wantedTargets (found ++ [.ofTag t negated])) s.tags ∨
      ∃ q ∈ found ++ [.ofTag t negated], p.AsksLike q := by
  obtain ⟨target, hmem, tag, htag, rfl⟩ := mem_foundTargets.mp hp
  by_cases hid : target.1 = t.id
  · rw [hid] at htag
    obtain rfl := takeRow_id hs ht htag
    obtain ⟨q, hq, hpoints, haliased, hexcluded⟩ := exists_of_mem_wantedTargets hmem
    rw [← hexcluded]
    refine .inr ?_
    rcases List.mem_append.mp hq with hq | hq
    · exact ⟨q, List.mem_append_left _ hq,
        asksLike_of_pointsElsewhere (hfound q hq) hpoints (haliased.trans hid) h.plain⟩
    · obtain rfl := List.mem_singleton.mp hq
      exact ⟨_, List.mem_append_right _ (List.mem_singleton_self _), .refl rfl⟩
  · refine .inl (mem_foundTargets.mpr ⟨target, ?_, tag, htag, rfl⟩)
    rw [← wantedTargets_alias h hne hother]
    exact List.mem_filter.mpr ⟨hmem, decide_eq_true hid⟩

/-- The alias and its target have one plan, whatever else the query names. -/
theorem ofPredicates_withTag (hs : s.Consistent) (ht : t ∈ s.tags) (h : IsAliasOf a t)
    (hfound : ∀ q ∈ found, q ∈ placed ∧ q.condition = none)
    (hother : ∀ q ∈ found, pointsElsewhere q = true → q.aliased ≠ a.id) (kind : Kind) (negated : Bool) :
    Plan.ofPredicates (withTag s.tags placed found a negated) kind =
      Plan.ofPredicates (withTag s.tags placed found t negated) kind := by
  have hne : t.id ≠ 0 := hs.tagIds.ne_zero (List.mem_map_of_mem ht)
  have hpoints : pointsElsewhere (.ofTag a negated) = true := by
    simp [pointsElsewhere, Predicate.ofTag, h.isAlias, h.target, hne]
  have halike : (Predicate.ofTag t negated).AsksLike (.ofTag a negated) :=
    asksLike_of_pointsElsewhere rfl hpoints h.target h.plain
  refine Plan.ofPredicates_congr (by rw [parts_withTag, parts_withTag]) ?_ ?_
  · intro p hp hc
    simp only [withTag, List.mem_append, List.mem_singleton] at hp ⊢
    rcases hp with hp | rfl | hp
    · exact ⟨p, .inl hp, .refl hc⟩
    · exact ⟨_, .inr (.inl rfl), rfl, rfl, rfl, halike.key_eq.symm⟩
    · rcases mem_foundTargets_alias hs ht h hne (fun q hq => (hfound q hq).2) hother hp with hp | ⟨q, hq, hpq⟩
      · exact ⟨p, .inr (.inr hp), .refl hc⟩
      · rcases List.mem_append.mp hq with hq | hq
        · exact ⟨q, .inl (hfound q hq).1, hpq⟩
        · exact ⟨q, .inr (.inl (List.mem_singleton.mp hq)), hpq⟩
  · intro p hp hc
    simp only [withTag, List.mem_append, List.mem_singleton] at hp ⊢
    rcases hp with hp | rfl | hp
    · exact ⟨p, .inl hp, .refl hc⟩
    · exact ⟨_, .inr (.inl rfl), halike⟩
    · refine ⟨p, .inr (.inr ?_), .refl hc⟩
      rw [← wantedTargets_alias h hne hother] at hp
      exact (List.filter_sublist.filterMap _).subset hp

end Targets

section Queries

variable {s : Store} {a t : Tag} {kind : Kind} {raw sign : String} {predicates placed : List Predicate}

lemma gives_sign {source : Source} (hs : s.Consistent) (ht : t ∈ s.tags) (h : IsTagName t.name) (negated : Bool) :
    Token.Gives kind source s.tags ⟨t.name, negated⟩ (.ofTag t negated) where
  name_eq := (h.key_eq negated).symm
  excluded_eq := rfl
  tag name hname := by
    obtain rfl := NormalForm.tag.inj (h.normalize_eq.symm.trans hname)
    exact (predicate_of_mem hs ht negated).symm
  metatag name comparator value hform := by cases h.normalize_eq.symm.trans hform

/-- A query that parses also parses with one more tag, if there is room for its name. -/
lemma result_parse_sign (hs : s.Consistent) (ht : t ∈ s.tags) (h : IsTagName t.name)
    (hsign : sign = "" ∨ sign = "-" ∨ sign = "+") (hclosed : IsClosed raw)
    (hkey : ∀ u ∈ tokenize raw, u.key kind ≠ t.name)
    (meant : ∀ u ∈ keptTokens raw kind, ∀ e, ¬ u.Fails kind (Database.ready s).source e)
    (hplaced : List.Forall₂ (Token.Gives kind (Database.ready s).source s.tags) (keptTokens raw kind) placed)
    (hroom : (requests (keptTokens raw kind)).length < valueLimit) :
    (parse (raw ++ " " ++ sign ++ t.name) kind (Database.ready s).source).result =
      .ok (withTag s.tags placed (resolved s.tags (keptTokens raw kind)) t (sign == "-")) := by
  have hresolved : resolved s.tags (keptTokens (raw ++ " " ++ sign ++ t.name) kind) =
      resolved s.tags (keptTokens raw kind) ++ [.ofTag t (sign == "-")] := by
    rw [resolved, requests_sign h hsign hclosed hkey, List.map_append, List.map_singleton,
      predicate_of_mem hs ht, ← resolved]
  have hall : List.Forall₂ (Token.Gives kind (Database.ready s).source s.tags)
      (keptTokens (raw ++ " " ++ sign ++ t.name) kind) (placed ++ [.ofTag t (sign == "-")]) := by
    rw [keptTokens_sign h hsign hclosed hkey]
    exact List.rel_append hplaced (.cons (gives_sign hs ht h _) .nil)
  have hcount : (requests (keptTokens (raw ++ " " ++ sign ++ t.name) kind)).length ≤ valueLimit := by
    rw [requests_sign h hsign hclosed hkey, List.length_append]
    exact hroom
  rw [result_parse_ready (terms_eq_map _ _) (requests_nodup (keptTokens_pairwise _ _))
    (meant_sign h hsign hclosed hkey meant) hcount hall, hresolved, withTag, List.append_assoc]

/-- An alias searches like its target: with the one or the other behind a query, the plans are equal, and so is what
they find. The engine looks up 32,766 names at once, so a query of that many has no room for either. -/
theorem alias_searches_like_target (hs : s.Reachable) (ha : a ∈ s.tags) (ht : t ∈ s.tags) (h : IsAliasOf a t)
    (haname : IsTagName a.name) (htname : IsTagName t.name) (hsign : sign = "" ∨ sign = "-" ∨ sign = "+")
    (hparse : (parse raw kind (Database.ready s).source).result = .ok predicates) (hclosed : IsClosed raw)
    (hkeys : ∀ u ∈ tokenize raw, u.key kind ≠ a.name ∧ u.key kind ≠ t.name)
    (hother : ∀ u ∈ keptTokens raw kind, ∀ b ∈ s.tags, normalize u.text = .tag b.name → b.isAlias = true →
      b.aliased ≠ a.id) :
    ((requests (keptTokens raw kind)).length < valueLimit →
      ∃ left right plan ids,
        (parse (raw ++ " " ++ sign ++ a.name) kind (Database.ready s).source).result = .ok left ∧
        (parse (raw ++ " " ++ sign ++ t.name) kind (Database.ready s).source).result = .ok right ∧
        Plan.ofPredicates left kind = .ok plan ∧ Plan.ofPredicates right kind = .ok plan ∧
        s.found kind left = .ok ids ∧ s.found kind right = .ok ids) ∧
      (valueLimit ≤ (requests (keptTokens raw kind)).length →
        ∃ text offset,
          (parse (raw ++ " " ++ sign ++ a.name) kind (Database.ready s).source).result =
            .error (.store (.database (.tooManyValues text offset))) ∧
          (parse (raw ++ " " ++ sign ++ t.name) kind (Database.ready s).source).result =
            .error (.store (.database (.tooManyValues text offset)))) := by
  have meant := meant_of_parse hparse
  have hkeysa : ∀ u ∈ tokenize raw, u.key kind ≠ a.name := fun u hu => (hkeys u hu).1
  have hkeyst : ∀ u ∈ tokenize raw, u.key kind ≠ t.name := fun u hu => (hkeys u hu).2
  constructor
  · intro hroom
    obtain ⟨slots, _, _, hgives⟩ := exists_slots meant
    have hplaced := hgives s.tags
    have hleft := result_parse_sign hs.consistent ha haname hsign hclosed hkeysa meant hplaced hroom
    have hright := result_parse_sign hs.consistent ht htname hsign hclosed hkeyst meant hplaced hroom
    have hplans := ofPredicates_withTag hs.consistent ht h
      (fun q hq => ⟨mem_placed hplaced hq, plain_of_mem_resolved hq⟩)
      (fun q hq hpoints => by
        simp only [pointsElsewhere, Bool.and_eq_true] at hpoints
        obtain ⟨u, hu, b, hb, hform, rfl⟩ := row_of_mem_resolved hq hpoints.1.1
        exact hother u hu b hb hform hpoints.1.2) kind (sign == "-")
    obtain ⟨plan, hplan⟩ := (allInterpreted_of_parse hleft).exists_plan
    exact ⟨_, _, plan, _, hleft, hright, hplan, hplans ▸ hplan, Store.found_eq hplan,
      Store.found_eq (hplans ▸ hplan)⟩
  · intro hfull
    obtain ⟨text, offset, hrefused⟩ := result_parse_sign_refused hsign hclosed meant hfull
    exact ⟨text, offset, hrefused _ haname hkeysa, hrefused _ htname hkeyst⟩

/-- The alias of the sample, excluded behind a metatag. -/
theorem alias_excluded_in_sample :
    ∃ left right plan ids,
      (parse "score:>3 -heavens" .image (Database.ready .sample).source).result = .ok left ∧
      (parse "score:>3 -sky" .image (Database.ready .sample).source).result = .ok right ∧
      Plan.ofPredicates left .image = .ok plan ∧ Plan.ofPredicates right .image = .ok plan ∧
      Store.sample.found .image left = .ok ids ∧ Store.sample.found .image right = .ok ids := by
  have hother : ∀ u ∈ keptTokens "score:>3" .image, ∀ b ∈ Store.sample.tags, normalize u.text = .tag b.name →
      b.isAlias = true → b.aliased ≠ 2 := by decide
  have hsearches := @alias_searches_like_target .sample ⟨2, "heavens", "", 1, none, 1, true⟩
    ⟨1, "sky", "", 1, none, 0, false⟩ .image "score:>3" "-" [.ofCondition ⟨"score", .integer 3, .gt⟩ false]
    (Store.Reachable.empty.run _) (by decide) (by decide) ⟨rfl, rfl, rfl⟩ (by decide) (by decide) (by decide) rfl rfl
    (by decide) hother
  exact hsearches.1 (by decide)

/-- Names of digits, all excluded. -/
def numbers (count : ℕ) : List Token := (List.range count).map fun k => ⟨k.repr, true⟩

def withoutNumbers (count : ℕ) : String :=
  String.ofList (Text.joinWith ' ' ((numbers count).map Token.write))

section Numbers

variable {count : ℕ} {u : Token}

lemma isTagName_repr (k : ℕ) : IsTagName k.repr := by
  refine ⟨Nat.repr_ne_empty, fun c hc => ?_⟩
  rw [Nat.toList_repr] at hc
  have hdigit := Nat.isDigit_of_mem_toDigits (by decide) (by decide) hc
  rw [Char.isDigit, Bool.and_eq_true] at hdigit
  simp only [isNameChar, Bool.or_eq_true, Bool.and_eq_true]
  exact .inl (.inr hdigit)

lemma repr_injective {k l : ℕ} (h : k.repr = l.repr) : k = l := by
  have hdigits : Nat.toDigits 10 k = Nat.toDigits 10 l := by rw [← Nat.toList_repr, h, Nat.toList_repr]
  rw [← Nat.ofDigitChars_toDigits (by decide) (Nat.le_refl 10) (n := k), hdigits,
    Nat.ofDigitChars_toDigits (by decide) (Nat.le_refl 10)]

lemma exists_of_mem_numbers (h : u ∈ numbers count) : ∃ k : ℕ, u = ⟨k.repr, true⟩ := by
  obtain ⟨k, _, rfl⟩ := List.mem_map.mp h
  exact ⟨k, rfl⟩

lemma isBare_of_mem_numbers (h : u ∈ numbers count) : IsBare u.text.toList := by
  obtain ⟨k, rfl⟩ := exists_of_mem_numbers h
  exact (isTagName_repr k).isBare

lemma numbers_pairwise : (numbers count).Pairwise fun t u => t.text ≠ u.text :=
  List.Pairwise.map _ (fun _ _ hne heq => hne (repr_injective heq)) List.nodup_range

lemma tokenize_withoutNumbers : tokenize (withoutNumbers count) = numbers count :=
  tokenize_joinWith (fun _ => isBare_of_mem_numbers) numbers_pairwise

lemma key_of_mem_numbers (h : u ∈ numbers count) : u.key kind = u.text := by
  obtain ⟨k, rfl⟩ := exists_of_mem_numbers h
  exact (isTagName_repr k).key_eq true

lemma keptTokens_withoutNumbers : keptTokens (withoutNumbers count) kind = numbers count := by
  have hpairwise : (numbers count).Pairwise fun t u => t.key kind ≠ u.key kind :=
    numbers_pairwise.imp_of_mem fun ht hu hne => by rwa [key_of_mem_numbers ht, key_of_mem_numbers hu]
  rw [keptTokens_eq, tokenize_withoutNumbers, firstOfKey_eq_self _ hpairwise, List.filter_eq_self]
  intro u hu
  rw [key_of_mem_numbers hu]
  exact decide_eq_true (isBare_of_mem_numbers hu).ne_empty

lemma length_requests_numbers : (requests (numbers count)).length = count := by
  have hrequest : ∀ k : ℕ, Token.request? ⟨k.repr, true⟩ = some ⟨k.repr, true⟩ :=
    fun k => (isTagName_repr k).request_eq true
  simp only [requests, numbers, List.filterMap_map, Function.comp_def, hrequest, List.filterMap_eq_map',
    List.length_map, List.length_range]

lemma closed_withoutNumbers : IsClosed (withoutNumbers count) := by
  rw [IsClosed, withoutNumbers, String.toList_ofList, Text.words_joinWith rfl, run_write fun _ => isBare_of_mem_numbers]
  exact List.forall_mem_map.mpr fun u hu => write_isWord (isBare_of_mem_numbers hu)

lemma meant_withoutNumbers {source : Source} :
    ∀ u ∈ keptTokens (withoutNumbers count) kind, ∀ e, ¬ u.Fails kind source e := by
  rw [keptTokens_withoutNumbers]
  intro u hu
  obtain ⟨k, rfl⟩ := exists_of_mem_numbers hu
  exact (isTagName_repr k).not_fails true

/-- A name with a letter is not a number. -/
lemma text_ne_of_letter {name : String} (hletter : name.toList.any fun c => !c.isDigit) (h : u ∈ numbers count) :
    u.text ≠ name := by
  obtain ⟨k, rfl⟩ := exists_of_mem_numbers h
  rintro rfl
  obtain ⟨c, hc, hdigit⟩ := List.any_eq_true.mp hletter
  rw [Nat.toList_repr] at hc
  rw [Nat.isDigit_of_mem_toDigits (by decide) (by decide) hc] at hdigit
  cases hdigit

lemma exists_parse_withoutNumbers (s : Store) (h : count ≤ valueLimit) :
    ∃ predicates, (parse (withoutNumbers count) kind (Database.ready s).source).result = .ok predicates := by
  obtain ⟨slots, _, _, hgives⟩ := exists_slots (@meant_withoutNumbers kind count (Database.ready s).source)
  refine ⟨_, result_parse_ready (terms_eq_map _ _) (requests_nodup (keptTokens_pairwise _ _)) meant_withoutNumbers ?_
    (hgives s.tags)⟩
  rwa [keptTokens_withoutNumbers, length_requests_numbers]

end Numbers

/-- A query without 32,766 numbers parses, but with the alias or its target behind them it does not. -/
theorem alias_refused :
    Store.Reachable .sample ∧ ⟨2, "heavens", "", 1, none, 1, true⟩ ∈ Store.sample.tags ∧
      ⟨1, "sky", "", 1, none, 0, false⟩ ∈ Store.sample.tags ∧
      IsAliasOf ⟨2, "heavens", "", 1, none, 1, true⟩ ⟨1, "sky", "", 1, none, 0, false⟩ ∧
      IsTagName "heavens" ∧ IsTagName "sky" ∧
      (∃ predicates, (parse (withoutNumbers 32766) .image (Database.ready .sample).source).result = .ok predicates) ∧
      IsClosed (withoutNumbers 32766) ∧
      (∀ u ∈ tokenize (withoutNumbers 32766), u.key .image ≠ "heavens" ∧ u.key .image ≠ "sky") ∧
      (∀ u ∈ tokenize (withoutNumbers 32766), ∀ b ∈ Store.sample.tags, normalize u.text ≠ .tag b.name) ∧
      ∃ text offset, ∀ name ∈ ["heavens", "sky"],
        (parse (withoutNumbers 32766 ++ " " ++ name) .image (Database.ready .sample).source).result =
          .error (.store (.database (.tooManyValues text offset))) := by
  have hname : ∀ name ∈ ["heavens", "sky"], IsTagName name := by decide
  have hletter : ∀ name ∈ ["heavens", "sky"], name.toList.any fun c => !c.isDigit := by decide
  have hkey : ∀ name ∈ ["heavens", "sky"], ∀ u ∈ tokenize (withoutNumbers 32766), u.key .image ≠ name := by
    intro name hmem u hu
    rw [tokenize_withoutNumbers] at hu
    rw [key_of_mem_numbers hu]
    exact text_ne_of_letter (hletter name hmem) hu
  have hknown : ∀ b ∈ Store.sample.tags, b.name ∈ ["heavens", "sky"] := by decide
  refine ⟨Store.Reachable.empty.run _, by decide, by decide, ⟨rfl, rfl, rfl⟩, hname _ (by decide),
    hname _ (by decide), exists_parse_withoutNumbers _ (by decide), closed_withoutNumbers,
    fun u hu => ⟨hkey _ (by decide) u hu, hkey _ (by decide) u hu⟩, fun u hu b hb hform => ?_, ?_⟩
  · refine hkey _ (hknown b hb) u hu ?_
    rw [Token.key, hform, NormalForm.key]
  · have hfull : valueLimit ≤ (requests (keptTokens (withoutNumbers 32766) .image)).length := by
      rw [keptTokens_withoutNumbers, length_requests_numbers]
      decide
    obtain ⟨text, offset, hrefused⟩ := @result_parse_sign_refused .image _ "" .sample (.inl rfl) closed_withoutNumbers
      meant_withoutNumbers hfull
    refine ⟨text, offset, fun name hmem => ?_⟩
    rw [← hrefused name (hname name hmem) (hkey name hmem), String.append_empty]

end Queries

end TagSearch.Query
