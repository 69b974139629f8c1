import TagSearch.Proofs.Metatag.Pattern
import TagSearch.Proofs.Query.Single
import TagSearch.Proofs.Search.Limit
import TagSearch.Proofs.Search.Window

/-! Metatags that search a text. They find the entities whose column contains what the value asks for, unless the
engine refuses the pattern for its size. -/
namespace TagSearch
open Sql

namespace Store

variable {s : Store} {kind : Kind} {column : Column}

/-- The plan that searches a column for a pattern. -/
def patternPlan (kind : Kind) (column : Column) (pattern : String) : Plan :=
  ⟨kind, .all [.compare column .like (.text pattern) true], none⟩

/-- The engine refuses to look for a pattern that is too long, if there is a row to compare. -/
lemma windowRefusal_patternPlan (pattern : String) :
    Engine.standard.windowRefusal? s (patternPlan kind column pattern) 0 0 =
      if patternLimit < pattern.utf8ByteSize ∧ s.rows kind ≠ [] then some .patternTooLong else none := by
  have hfew : AreFew [.compare column .like (.text pattern) true] :=
    ⟨rfl, Nat.le_of_ble_eq_true rfl, Nat.le_of_ble_eq_true rfl⟩
  have hcount : (patternPlan kind column pattern).countStatement.IsSmall := hfew.isSmall rfl
  have hpage : ((patternPlan kind column pattern).pageStatement 0 0).IsSmall := hfew.isSmall rfl
  have hrefused := @Engine.refusal_compare s _ column .like (.text pattern) true rfl hcount (fun _ => rfl) rfl
  have hrefused' := @Engine.refusal_compare s _ column .like (.text pattern) true rfl hpage (fun _ => rfl) rfl
  exact (Engine.windowRefusal_of_eq rfl (hrefused'.trans hrefused.symm)).trans hrefused

/-- The text of a column has what a pattern describes. -/
lemma meets_pattern {e : Entity} {key pattern : String}
    (hcolumn : (Metatag.descriptor? key).map Metatag.Descriptor.target = some (.column column)) :
    s.Meets e ⟨key, .pattern pattern, .like⟩ ↔
      ∃ text, e.column? column = some (.text text) ∧ like (some '\\') pattern text = true := by
  simp only [Meets, hcolumn]
  constructor
  · rintro ⟨stored, hstored, hlike⟩
    cases stored with
    | text text => exact ⟨text, hstored, hlike⟩
    | integer | user | flag | pattern | hashes => exact absurd hlike id
  · rintro ⟨text, htext, hlike⟩
    exact ⟨.text text, htext, hlike⟩

end Store

namespace Query
open Text

/-- The metatags whose values are patterns, with the columns that they search. -/
inductive SearchesText : String → Kind → Column → Prop
  | name (kind : Kind) : SearchesText "name" kind .name
  | location : SearchesText "location" .image .location

variable {s : Store} {name value pattern : String} {kind : Kind} {column : Column}

/-- The predicate of a metatag that searches a text. -/
def textSearch (name pattern : String) : Predicate := .ofCondition ⟨name, .pattern pattern, .like⟩ false

lemma exists_pattern (h : 3 < value.length) : ∃ pattern, Metatag.containsPattern? value = some pattern := by
  rw [Metatag.containsPattern?, if_neg (Nat.not_le.mpr h)]
  exact ⟨_, rfl⟩

lemma parse_textSearch (source : Source) (hmeta : SearchesText name kind column)
    (hvalue : ∀ c ∈ value.toList, isValueChar c = true) (hpattern : Metatag.containsPattern? value = some pattern) :
    (parse (name ++ ":" ++ value) kind source).result = .ok [textSearch name pattern] := by
  have hmark : Comparator.Writes .eq "".toList := ⟨rfl, .inr ⟨rfl, rfl⟩⟩
  have htext : name ++ ":" ++ value = writeMetatag false name "" value := by simp [writeMetatag]
  have hread : (Metatag.readValue name .pattern value source).result = .ok (.pattern pattern) := by
    rw [Metatag.readValue, hpattern]
    rfl
  rw [htext]
  cases hmeta with
  | name =>
    have hd : Metatag.lookup? "name" kind =
        some ⟨"name", [], .column .name, .pattern, .forced .like, true, .all⟩ := by
      cases kind <;> rfl
    rw [result_parse_writeMetatag false hd hmark hvalue, hread]
    rfl
  | location =>
    have hd : Metatag.lookup? "location" .image =
        some ⟨"location", [], .column .location, .pattern, .forced .like, true, .images⟩ := rfl
    rw [result_parse_writeMetatag false hd hmark hvalue, hread]
    rfl

lemma ofPredicates_textSearch (hmeta : SearchesText name kind column) (pattern : String) :
    Plan.ofPredicates [textSearch name pattern] kind = .ok (Store.patternPlan kind column pattern) := by
  cases hmeta with
  | name =>
    cases kind <;> rfl
  | location => rfl

lemma satisfies_textSearch {e : Entity} (hmeta : SearchesText name kind column) :
    s.Satisfies e (textSearch name pattern) ↔
      ∃ text, e.column? column = some (.text text) ∧ like (some '\\') pattern text = true := by
  rw [Store.satisfies_of_condition rfl]
  cases hmeta with
  | name => exact Store.meets_pattern rfl
  | location => exact Store.meets_pattern rfl

/-- What a search for a text shows: what it finds, unless the engine refuses the pattern for its size. -/
lemma wholeIds_textSearch (hs : s.Consistent) (hmeta : SearchesText name kind column) (pattern : String) :
    Search.wholeIds kind [textSearch name pattern] (Database.ready s).source =
      Engine.unlessRefused
        (if patternLimit < pattern.utf8ByteSize ∧ s.rows kind ≠ [] then some .patternTooLong else none)
        (s.listed (Store.patternPlan kind column pattern)) := by
  rw [Search.wholeIds_eq hs (ofPredicates_textSearch hmeta pattern), Store.windowRefusal_patternPlan]

lemma mem_listed_textSearch (hs : s.Consistent) (hmeta : SearchesText name kind column)
    (hvalue : ∀ c ∈ value.toList, isValueChar c = true) (hpattern : Metatag.containsPattern? value = some pattern)
    {e : Entity} (hhas : s.Has e) (he : e.kind = kind) :
    e.id ∈ s.listed (Store.patternPlan kind column pattern) ↔ ∃ text, e.column? column = some (.text text) ∧
      Contains (beforeNul text.toList) (Metatag.literalText value.toList) := by
  have hparse := parse_textSearch (Database.ready s).source hmeta hvalue hpattern
  have hfound := Store.found_eq (s := s) (ofPredicates_textSearch hmeta pattern)
  rw [Store.mem_found hs (allInterpreted_of_parse hparse) hfound hhas he, List.forall_mem_singleton,
    satisfies_textSearch hmeta]
  simp only [Metatag.like_pattern_iff hvalue hpattern]

/-- A metatag that searches a text finds the entities whose column, up to its first NUL, contains what the value asks
for. The search shows them, unless its pattern is too long and there is an entity to look at. -/
theorem textSearch_finds_containing (hs : s.Reachable) (hmeta : SearchesText name kind column)
    (hvalue : ∀ c ∈ value.toList, isValueChar c = true) (hlong : 3 < value.length) :
    ∃ pattern ids, Metatag.containsPattern? value = some pattern ∧
      (parse (name ++ ":" ++ value) kind (Database.ready s).source).result = .ok [textSearch name pattern] ∧
      s.found kind [textSearch name pattern] = .ok ids ∧
      (∀ e, s.Has e → e.kind = kind → (e.id ∈ ids ↔ ∃ text, e.column? column = some (.text text) ∧
        Contains (beforeNul text.toList) (Metatag.literalText value.toList))) ∧
      ((∀ e, s.Has e → e.kind = kind → pattern.utf8ByteSize ≤ patternLimit) →
        Search.wholeIds kind [textSearch name pattern] (Database.ready s).source = .ok ids) ∧
      ∀ e, s.Has e → e.kind = kind → patternLimit < pattern.utf8ByteSize →
        Search.wholeIds kind [textSearch name pattern] (Database.ready s).source =
          .error (.store (.database .patternTooLong)) := by
  obtain ⟨pattern, hpattern⟩ := exists_pattern hlong
  have hshown := wholeIds_textSearch hs.consistent hmeta pattern
  refine ⟨pattern, _, hpattern, parse_textSearch _ hmeta hvalue hpattern,
    Store.found_eq (ofPredicates_textSearch hmeta pattern), fun e hhas he => ?_, fun hsize => ?_,
    fun e hhas he hsize => ?_⟩
  · exact mem_listed_textSearch hs.consistent hmeta hvalue hpattern hhas he
  · rw [hshown, if_neg]
    · rfl
    · rintro ⟨hsize', hrows⟩
      obtain ⟨e, hhas, he⟩ := Store.rows_ne_nil.mp hrows
      exact Nat.not_le.mpr hsize' (hsize e hhas he)
  · rw [hshown, if_pos ⟨hsize, Store.rows_ne_nil.mpr ⟨e, hhas, he⟩⟩]
    rfl

/-- A catalog of three harbours. The name of the last one stands behind a NUL. -/
def harbours : Store :=
  Store.empty.run [.createUser "ann", .createImage "Old Harbour_9" "/1.png" 1,
    .createImage "Old HarbourX9" "/2.png" 1, .createImage "Sky\x00Old Harbour_9" "/3.png" 1]

lemma harbours_images : harbours.images = [⟨1, "Old Harbour_9", "/1.png", 1, "unrated", 0, 0, 0⟩,
    ⟨2, "Old HarbourX9", "/2.png", 1, "unrated", 0, 0, 0⟩,
    ⟨3, "Sky\x00Old Harbour_9", "/3.png", 1, "unrated", 0, 0, 0⟩] := by decide

lemma pattern_harbour : Metatag.containsPattern? "old__harbour_9" = some "%old harbour\\_9%" := by decide +kernel

theorem harbour_found :
    ∃ ids, (parse "name:old__harbour_9" .image (Database.ready harbours).source).result =
        .ok [textSearch "name" "%old harbour\\_9%"] ∧
      Search.wholeIds .image [textSearch "name" "%old harbour\\_9%"] (Database.ready harbours).source = .ok ids ∧
      1 ∈ ids ∧ 2 ∉ ids := by
  have hvalue : ∀ c ∈ "old__harbour_9".toList, isValueChar c = true := List.all_eq_true.mp (by decide)
  obtain ⟨pattern, ids, hpattern, hparse, _, hmem, hshown, _⟩ :=
    @textSearch_finds_containing harbours "name" "old__harbour_9" .image .name (Store.Reachable.empty.run _)
      (.name .image) hvalue (by decide)
  obtain rfl := Option.some.inj (pattern_harbour.symm.trans hpattern)
  refine ⟨ids, hparse, hshown fun _ _ _ => by decide +kernel, ?_, fun h => ?_⟩
  · have hhas : harbours.Has (.image ⟨1, "Old Harbour_9", "/1.png", 1, "unrated", 0, 0, 0⟩) := by
      rw [Store.Has, harbours_images]
      exact List.mem_cons_self
    exact (hmem _ hhas rfl).mpr ⟨_, rfl, [], "Old Harbour_9".toList, [], by decide, by decide⟩
  · have hhas : harbours.Has (.image ⟨2, "Old HarbourX9", "/2.png", 1, "unrated", 0, 0, 0⟩) := by
      rw [Store.Has, harbours_images]
      exact List.mem_cons_of_mem _ List.mem_cons_self
    obtain ⟨text, htext, hcontains⟩ := (hmem _ hhas rfl).mp h
    cases htext
    have hlike := (Metatag.like_pattern_iff hvalue pattern_harbour "Old HarbourX9").mpr hcontains
    exact absurd hlike (by decide +kernel)

/-- A name behind a NUL is not found, although the column contains it, and for 50,000 letters nothing is looked at. -/
theorem textSearch_misses :
    Store.Reachable harbours ∧
      (∃ ids, (parse "name:old__harbour_9" .image (Database.ready harbours).source).result =
          .ok [textSearch "name" "%old harbour\\_9%"] ∧
        Search.wholeIds .image [textSearch "name" "%old harbour\\_9%"] (Database.ready harbours).source = .ok ids ∧
        3 ∉ ids ∧
        ∃ i ∈ harbours.images, i.id = 3 ∧ Contains i.name.toList (Metatag.literalText "old__harbour_9".toList)) ∧
      ∃ predicates,
        (parse ("name:" ++ String.ofList (List.replicate 50000 'a')) .image (Database.ready harbours).source).result =
          .ok predicates ∧
        Search.wholeIds .image predicates (Database.ready harbours).source =
          .error (.store (.database .patternTooLong)) := by
  have hreachable : Store.Reachable harbours := Store.Reachable.empty.run _
  have hvalue : ∀ c ∈ "old__harbour_9".toList, isValueChar c = true := List.all_eq_true.mp (by decide)
  have hmem : (⟨3, "Sky\x00Old Harbour_9", "/3.png", 1, "unrated", 0, 0, 0⟩ : Image) ∈ harbours.images := by
    rw [harbours_images]
    exact List.mem_cons_of_mem _ (List.mem_cons_of_mem _ List.mem_cons_self)
  have hsize : ¬ (patternLimit < "%old harbour\\_9%".utf8ByteSize ∧ harbours.rows .image ≠ []) :=
    fun h => absurd h.1 (by decide +kernel)
  have hshown : Search.wholeIds .image [textSearch "name" "%old harbour\\_9%"] (Database.ready harbours).source =
      .ok (harbours.listed (Store.patternPlan .image .name "%old harbour\\_9%")) := by
    rw [wholeIds_textSearch hreachable.consistent (.name .image), if_neg hsize]
    rfl
  have hparse := parse_textSearch (Database.ready harbours).source (.name .image) hvalue pattern_harbour
  refine ⟨hreachable, ⟨_, hparse, hshown, fun h => ?_, _, hmem, rfl, "Sky\x00".toList, "Old Harbour_9".toList, [],
    by decide, by decide⟩, ?_⟩
  · have hhas : harbours.Has (.image ⟨3, "Sky\x00Old Harbour_9", "/3.png", 1, "unrated", 0, 0, 0⟩) := hmem
    obtain ⟨text, htext, hcontains⟩ :=
      (mem_listed_textSearch hreachable.consistent (.name .image) hvalue pattern_harbour hhas rfl).mp h
    cases htext
    have hlike := (Metatag.like_pattern_iff hvalue pattern_harbour "Sky\x00Old Harbour_9").mpr hcontains
    exact absurd hlike (by decide +kernel)
  · have hletters : ∀ c ∈ (String.ofList (List.replicate 50000 'a')).toList, isValueChar c = true := by
      intro c hc
      rw [String.toList_ofList] at hc
      rw [List.eq_of_mem_replicate hc]
      rfl
    have hpattern := Search.containsPattern_replicate (n := 50000) (by decide)
    have hname : "name:" = "name" ++ ":" := rfl
    rw [hname]
    refine ⟨_, parse_textSearch _ (.name .image) hletters hpattern, ?_⟩
    rw [wholeIds_textSearch hreachable.consistent (.name .image), if_pos]
    · rfl
    · exact ⟨Nat.lt_of_lt_of_le Search.patternLimit_lt (length_le_utf8ByteSize _),
        Store.rows_ne_nil.mpr ⟨.image _, hmem, rfl⟩⟩

end Query
end TagSearch
