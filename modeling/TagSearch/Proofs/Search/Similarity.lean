import TagSearch.Proofs.Search.Limit
import TagSearch.Proofs.Search.Window

/-! Similarity only reorders. A page that is ordered by similarity has the images of the page that is not, those nearest
to the given hashes first. Its statement binds two more values, and an engine that takes no more refuses it. -/
namespace TagSearch
open Sql

namespace Plan

variable {kind : Kind} {before after : List Predicate} {plan : Plan}

/-- A metatag is no plain tag. -/
lemma tagConditions_insert {p : Predicate} (hp : p.isMeta = true) :
    tagConditions kind (before ++ p :: after) = tagConditions kind (before ++ after) := by
  have hkeys : ∀ excluded, tagKeys excluded (before ++ p :: after) = tagKeys excluded (before ++ after) := by
    intro excluded
    simp only [tagKeys, List.filter_append, List.filter_cons, hp, Bool.not_true, Bool.false_and, Bool.false_eq_true,
      if_false]
  simp only [tagConditions, hkeys]

/-- The metatag for similarity changes nothing of a plan but its order, wherever it stands. -/
lemma ofPredicates_insert {p : Predicate} {c : MetaCondition} {target : HashPair} (hc : p.condition = some c)
    (hpart : partOf kind p.name p.excluded c = .ok (.order target))
    (h : ofPredicates (before ++ after) kind = .ok plan) (hnone : plan.similarTo = none) :
    ofPredicates (before ++ p :: after) kind = .ok { plan with similarTo := some target } := by
  have hmeta : p.isMeta = true := by rw [Predicate.isMeta, hc, Option.isSome_some]
  obtain ⟨found, hfound, rfl⟩ := ofPredicates_eq_ok.mp h
  obtain ⟨first, second, hfirst, hsecond, rfl⟩ := parts_append.mp hfound
  have hany : (before ++ p :: after).any isUnsatisfiable = (before ++ after).any isUnsatisfiable := by
    simp only [List.any_append, List.any_cons, isUnsatisfiable, hmeta, Bool.not_true, Bool.false_and, Bool.false_or]
  have hinsert : parts kind (before ++ p :: after) = .ok (first ++ .order target :: second) :=
    parts_append.mpr ⟨first, _, hfirst, (parts_cons_eq_ok hc).mpr ⟨_, second, hpart, hsecond, rfl⟩, rfl⟩
  have horders : first.filterMap Part.order? = [] ∧ second.filterMap Part.order? = [] := by
    rw [List.head?_eq_none_iff, List.filterMap_append] at hnone
    exact List.append_eq_nil_iff.mp hnone
  refine ofPredicates_eq_ok.mpr ⟨_, hinsert, ?_⟩
  simp only [hany, tagConditions_insert hmeta, List.filterMap_append, List.filterMap_cons, Part.condition?,
    Part.order?, horders.1, List.nil_append, List.head?_cons]

end Plan

namespace Store

variable {s : Store} {kind : Kind} {clause : Clause} {plan : Plan} {target : HashPair}

lemma nearerFirst_trans (a b c : Row) (hab : nearerFirst target a b = true) (hbc : nearerFirst target b c = true) :
    nearerFirst target a c = true := by
  have hid := newerFirst_trans a b c
  unfold nearerFirst at hab hbc ⊢
  generalize rowDistance target a = x, rowDistance target b = y, rowDistance target c = z at hab hbc ⊢
  cases x <;> cases y <;> cases z <;> grind

lemma nearerFirst_total (a b : Row) : (nearerFirst target a b || nearerFirst target b a) = true := by
  have hid := newerFirst_total a b
  unfold nearerFirst
  cases rowDistance target a <;> cases rowDistance target b <;> grind

/-- Which of two images lies nearer to a pair of hashes: one that has hashes before one that has none, then the one of
the smaller distance, then the newer one. -/
def Nearer (s : Store) (target : HashPair) (a b : UInt64) : Prop :=
  match s.imageHashes? a, s.imageHashes? b with
  | some x, some y =>
    x.distance target < y.distance target ∨ (x.distance target = y.distance target ∧ b < a)
  | some _, none => True
  | none, some _ => False
  | none, none => b < a

/-- A joined row has the distance of the hashes that are stored for its entity. The bits of a hash survive its reading
as a signed number. -/
lemma exists_entity_of_mem_joined (hs : s.Consistent) {row : Row}
    (h : row ∈ (s.matching kind clause).flatMap s.joinHashes) :
    ∃ e ∈ s.entities kind, row.id = e.id.toInt64 ∧
      rowDistance target row = (s.imageHashes? e.id).map fun pair => pair.distance target := by
  obtain ⟨base, hbase, hrow⟩ := List.mem_flatMap.mp h
  obtain ⟨e, he, rfl⟩ := exists_entity_of_mem_matching hbase
  have hfilter : (s.hashes.filter fun h => h.image.toInt64 = e.row.id) = s.hashes.filter fun h => h.image = e.id :=
    List.filter_congr fun h _ => by simp only [e.row_id, toInt64_inj]
  have hstored : s.imageHashes? e.id = (s.hashes.filter fun h => h.image = e.id).head?.map StoredHash.pair := by
    rw [List.head?_filter, imageHashes?]
  have hnone : e.row.hashes = none := by cases e <;> rfl
  refine ⟨e, he, ?_⟩
  rw [hstored, ← hfilter]
  rw [joinHashes] at hrow
  rcases hashesOf_eq hs e.row.id with hfound | ⟨h, hfound⟩
  · rw [hfound] at hrow ⊢
    rw [List.mem_singleton.mp hrow, rowDistance, hnone]
    exact ⟨e.row_id, rfl⟩
  · rw [hfound] at hrow ⊢
    rw [List.mem_singleton.mp hrow]
    refine ⟨e.row_id, ?_⟩
    simp [rowDistance, hammingOf, HashPair.distance]

lemma nearer_of_nearerFirst (hs : s.Consistent) {a b : Row}
    (ha : a ∈ (s.matching kind clause).flatMap s.joinHashes) (hb : b ∈ (s.matching kind clause).flatMap s.joinHashes)
    (hab : nearerFirst target a b = true) (hne : a.id.toUInt64 ≠ b.id.toUInt64) :
    s.Nearer target a.id.toUInt64 b.id.toUInt64 := by
  obtain ⟨e, he, hid, hdistance⟩ := @exists_entity_of_mem_joined s kind clause target hs a ha
  obtain ⟨e', he', hid', hdistance'⟩ := @exists_entity_of_mem_joined s kind clause target hs b hb
  have hlt : newerFirst a b = true → b.id.toUInt64 < a.id.toUInt64 := fun h => lt_of_newerFirst hs he he' hid hid' h hne
  have hstored : s.imageHashes? a.id.toUInt64 = s.imageHashes? e.id := by rw [hid, UInt64.toUInt64_toInt64]
  have hstored' : s.imageHashes? b.id.toUInt64 = s.imageHashes? e'.id := by rw [hid', UInt64.toUInt64_toInt64]
  rw [nearerFirst, hdistance, hdistance'] at hab
  rw [Nearer, hstored, hstored']
  cases hpair : s.imageHashes? e.id with
  | none =>
    cases hpair' : s.imageHashes? e'.id with
    | none =>
      rw [hpair, hpair'] at hab
      exact hlt hab
    | some y =>
      rw [hpair, hpair'] at hab
      cases hab
  | some x =>
    cases hpair' : s.imageHashes? e'.id with
    | none => trivial
    | some y =>
      rw [hpair, hpair'] at hab
      simp only [Option.map_some, Bool.or_eq_true, Bool.and_eq_true, decide_eq_true_eq, beq_iff_eq] at hab
      exact hab.imp id fun h => ⟨h.1, hlt h.2⟩

/-- The images nearest to the given hashes are listed first. -/
theorem listed_nearest (hs : s.Consistent) (hkind : plan.kind = .image) (h : plan.similarTo = some target) :
    (s.listed plan).Pairwise (s.Nearer target) := by
  have hnodup : (((s.matching plan.kind plan.clause).flatMap s.joinHashes).map fun row => row.id.toUInt64).Nodup := by
    have hids := congrArg (List.map Int64.toUInt64)
      (map_id_flatMap_joinHashes hs (s.matching plan.kind plan.clause))
    rw [List.map_map, List.map_map] at hids
    exact hids ▸ matching_nodup hs
  rw [listed, if_pos hkind, h, ordered]
  exact pairwise_ids_mergeSort nearerFirst_trans nearerFirst_total
    (fun a ha b hb => nearer_of_nearerFirst hs ha hb) hnodup

/-- An order lists the same images. -/
lemma listed_similar_perm (hs : s.Consistent) (plan : Plan) (target : HashPair) :
    (s.listed { plan with similarTo := some target }).Perm (s.listed plan) :=
  (listed_perm hs _).trans (listed_perm hs plan).symm

/-- An answered search is answered in the order of similarity too, if the engine takes the page in this order. -/
lemma windowRefusal_similar {engine : Engine} (h : engine.windowRefusal? s plan 0 0 = none)
    (hpage : engine.refusal? s (Plan.pageStatement { plan with similarTo := some target } 0 0) = none) :
    engine.windowRefusal? s { plan with similarTo := some target } 0 0 = none := by
  have hnothing : Plan.matchesNothing { plan with similarTo := some target } = plan.matchesNothing := rfl
  have hcount : Plan.countStatement { plan with similarTo := some target } = plan.countStatement := rfl
  rw [Engine.windowRefusal?] at h
  rw [Engine.windowRefusal?, hnothing, hcount, hpage, ite_self, Option.or_none]
  split at h
  · rename_i hmatches
    exact if_pos hmatches
  · rename_i hmatches
    rw [if_neg hmatches]
    exact (Option.or_eq_none_iff.mp h).1

/-- Entries that are looked up one by one come in the order of their ids. -/
lemma entries_perm {α : Type} {summary? : UInt64 → Option α} {ids ids' : List UInt64} {entries entries' : List α}
    (h : ids.map summary? = entries.map some) (h' : ids'.map summary? = entries'.map some) (hids : ids'.Perm ids) :
    entries'.Perm entries := by
  have hmap := (hids.map summary?).filterMap id
  rw [h, h', List.filterMap_map, List.filterMap_map, Function.id_comp, List.filterMap_some, List.filterMap_some] at hmap
  exact hmap

end Store

/-- A metatag whose value is a pair of hashes orders by similarity. -/
lemma Plan.partOf_of_hashes {p : Predicate} {target : HashPair} (h : p.IsInterpreted .image)
    (htarget : p.condition.map MetaCondition.value = some (.hashes target)) :
    ∃ c, p.condition = some c ∧ partOf .image p.name p.excluded c = .ok (.order target) := by
  obtain ⟨c, hc, _, hreads⟩ := h.reads
  rw [hc] at htarget
  generalize p.excluded = excluded at hreads ⊢
  cases hreads <;> cases htarget
  exact ⟨_, hc, rfl⟩

namespace Search

variable {s : Store} {before after : List Predicate} {p : Predicate} {target : HashPair}

/-- Ordering by similarity shows the same images, those nearest to the given hashes first. Each of both searches has its
answer unless the engine refuses one of its statements, which are the same but for the page. -/
theorem similarity_reorders (engine : Engine) (hs : s.Reachable)
    (hp : Predicate.AllInterpreted .image (before ++ after))
    (hno : ∀ q ∈ before ++ after, ∀ c, q.condition = some c → c.key ≠ "ordersimilar")
    (hsimilar : p.IsInterpreted .image) (htarget : p.condition.map MetaCondition.value = some (.hashes target)) :
    ∃ plan ordered plain page, Plan.ofPredicates (before ++ after) .image = .ok plan ∧
      Plan.ofPredicates (before ++ p :: after) .image = .ok ordered ∧
      (Search.images (before ++ after) 0 0 (engine.source (.ready s))).result =
        Engine.unlessRefused (engine.windowRefusal? s plan 0 0) plain ∧
      (Search.images (before ++ p :: after) 0 0 (engine.source (.ready s))).result =
        Engine.unlessRefused (engine.windowRefusal? s ordered 0 0) page ∧
      (engine.windowRefusal? s plan 0 0 = none → engine.refusal? s (ordered.pageStatement 0 0) = none →
        engine.windowRefusal? s ordered 0 0 = none) ∧
      s.found .image (before ++ after) = .ok (plain.items.map ImageSummary.id) ∧
      s.found .image (before ++ p :: after) = .ok (page.items.map ImageSummary.id) ∧
      page.total = plain.total ∧ page.items.Perm plain.items ∧
      (page.items.map ImageSummary.id).Pairwise (s.Nearer target) := by
  have hs := hs.consistent
  obtain ⟨plan, hplan⟩ := hp.exists_plan
  have hnone := Plan.similarTo_eq_none hplan hno
  obtain ⟨c, hc, hpart⟩ := Plan.partOf_of_hashes hsimilar htarget
  have hordered := Plan.ofPredicates_insert hc hpart hplan hnone
  have hperm := Store.listed_similar_perm hs plan target
  obtain ⟨entries, hentries, hids, hplain⟩ := Store.exists_images hs hplan
  obtain ⟨entries', hentries', hids', hpage⟩ := Store.exists_images hs hordered
  refine ⟨plan, _, _, _, hplan, hordered, hplain engine 0 0, hpage engine 0 0, Store.windowRefusal_similar,
    (Store.found_eq hplan).trans (congrArg Except.ok hids.symm),
    (Store.found_eq hordered).trans (congrArg Except.ok hids'.symm), congrArg UInt64.ofNat hperm.length_eq,
    Store.entries_perm hentries hentries' hperm, ?_⟩
  have hnearest := Store.listed_nearest hs (Plan.kind_of_ofPredicates hordered) rfl
  exact hids' ▸ hnearest

/-- The metatag for similarity. -/
def nearTo (target : HashPair) : Predicate := .ofCondition ⟨"ordersimilar", .hashes target, .eq⟩ false

lemma nearTo_isInterpreted (target : HashPair) : (nearTo target).IsInterpreted .image :=
  ⟨"ordersimilar", .eq, "1", false,
    { (Database.ready .sample).source with imageHashes := fun _ => .ok (some target) }, rfl⟩

/-- The sample with hashes. Those of the older image are negative as signed numbers. -/
def hashedSample : Store :=
  Store.sample.run [.setImageHashes 1 ⟨UInt64.ofNat (2 ^ 63), 0⟩, .setImageHashes 2 ⟨0, 0⟩]

theorem nearest_of_sample :
    ∃ plain page, (Search.images [.ofTag ⟨1, "sky", "", 1, none, 0, false⟩ false] 0 0
        (Database.ready hashedSample).source).result = .ok plain ∧
      (Search.images [.ofTag ⟨1, "sky", "", 1, none, 0, false⟩ false, nearTo ⟨UInt64.ofNat (2 ^ 63), 1⟩] 0 0
        (Database.ready hashedSample).source).result = .ok page ∧
      page.total = plain.total ∧ page.items.Perm plain.items ∧
      (page.items.map ImageSummary.id).Pairwise (hashedSample.Nearer ⟨UInt64.ofNat (2 ^ 63), 1⟩) ∧
      hashedSample.Nearer ⟨UInt64.ofNat (2 ^ 63), 1⟩ 1 2 := by
  have hcondition : ∀ q ∈ [Predicate.ofTag ⟨1, "sky", "", 1, none, 0, false⟩ false], q.condition = none := by
    simp [Predicate.ofTag]
  obtain ⟨plan, ordered, plain, page, hplan, hordered, hplain, hpage, hanswered, _, _, htotal, hperm, hsorted⟩ :=
    @similarity_reorders hashedSample [.ofTag ⟨1, "sky", "", 1, none, 0, false⟩ false] []
      (nearTo ⟨UInt64.ofNat (2 ^ 63), 1⟩) ⟨UInt64.ofNat (2 ^ 63), 1⟩ .standard ((Store.Reachable.empty.run _).run _)
      (by
        intro q hq hmeta
        rw [Predicate.isMeta, hcondition q hq] at hmeta
        cases hmeta)
      (by
        intro q hq c hc
        rw [hcondition q hq] at hc
        cases hc)
      (nearTo_isInterpreted _) rfl
  have hplan' : Plan.ofPredicates [.ofTag ⟨1, "sky", "", 1, none, 0, false⟩ false] .image =
      .ok ⟨.image, .all [.isIn (.carryingEvery .image [1])], none⟩ := rfl
  have hordered' : Plan.ofPredicates
      [.ofTag ⟨1, "sky", "", 1, none, 0, false⟩ false, nearTo ⟨UInt64.ofNat (2 ^ 63), 1⟩] .image =
      .ok ⟨.image, .all [.isIn (.carryingEvery .image [1])], some ⟨UInt64.ofNat (2 ^ 63), 1⟩⟩ := rfl
  obtain rfl := Except.ok.inj (hplan'.symm.trans hplan)
  obtain rfl := Except.ok.inj (hordered'.symm.trans hordered)
  have hwindow : Engine.standard.windowRefusal? hashedSample
      ⟨.image, .all [.isIn (.carryingEvery .image [1])], none⟩ 0 0 = none :=
    Engine.windowRefusal_of_few areFew_sky rfl
  rw [hanswered hwindow (Engine.refusal_of_few areFew_sky rfl rfl)] at hpage
  rw [hwindow] at hplain
  exact ⟨plain, page, hplain, hpage, htotal, hperm, hsorted, .inl (by decide +kernel)⟩

/-- The ids `count + 2`, …, `3`: no image of the sample carries one of them. -/
def otherTags (count : ℕ) : List UInt64 := (List.range count).map fun k => UInt64.ofNat (count + 2 - k)

/-- Exclude each of the other tags. -/
def withoutOthers (count : ℕ) : List Predicate :=
  (otherTags count).map fun id => .ofTag ⟨id, "", "", 0, none, 0, false⟩ true

/-- The plan that excludes some tags. -/
def excludingPlan (keys : List Int64) (similarTo : Option HashPair) : Plan :=
  ⟨.image, .all [.isNotIn (.carryingAny .image keys)], similarTo⟩

lemma valueCount_excludingPlan (keys : List Int64) (similarTo : Option HashPair) :
    (excludingPlan keys similarTo).valueCount = keys.length := by
  simp [excludingPlan, Plan.valueCount, Clause.values, Condition.values, Owners.values]

section Others

variable {count : ℕ} (h : count < 2 ^ 63)

include h

lemma toNat_otherTag {k : ℕ} : (UInt64.ofNat (count + 2 - k)).toNat = count + 2 - k := by
  have hlt : count + 2 - k < 2 ^ 64 := by omega
  exact UInt64.toNat_ofNat_of_lt' hlt

lemma toNat_of_mem_otherTags {id : UInt64} (hid : id ∈ otherTags count) : 3 ≤ id.toNat := by
  obtain ⟨k, hk, rfl⟩ := List.mem_map.mp hid
  have hk := List.mem_range.mp hk
  rw [toNat_otherTag h]
  omega

lemma otherTags_nodup : (otherTags count).Nodup := by
  refine List.nodup_range.map_on ?_
  intro j hj k hk hjk
  have hjk := congrArg UInt64.toNat hjk
  rw [toNat_otherTag h, toNat_otherTag h] at hjk
  have hj := List.mem_range.mp hj
  have hk := List.mem_range.mp hk
  omega

lemma mem_tagKeys_withoutOthers {excluded : Bool} {id : UInt64} :
    id ∈ Plan.tagKeys excluded (withoutOthers count) ↔ excluded = true ∧ id ∈ otherTags count := by
  rw [Plan.mem_tagKeys]
  constructor
  · rintro ⟨p, hp, _, _, rfl, _, rfl⟩
    obtain ⟨id, hid, rfl⟩ := List.mem_map.mp hp
    exact ⟨rfl, hid⟩
  · rintro ⟨rfl, hid⟩
    refine ⟨_, List.mem_map_of_mem hid, rfl, rfl, rfl, ?_, rfl⟩
    change id ≠ 0
    rintro rfl
    exact absurd (toNat_of_mem_otherTags h hid) (by decide)

lemma length_tagKeys_withoutOthers : (Plan.tagKeys true (withoutOthers count)).length = count := by
  have hperm : (Plan.tagKeys true (withoutOthers count)).Perm (otherTags count) :=
    (List.perm_ext_iff_of_nodup (Plan.keySet_nodup _) (otherTags_nodup h)).mpr fun id =>
      (mem_tagKeys_withoutOthers h).trans (and_iff_right rfl)
  rw [hperm.length_eq, otherTags, List.length_map, List.length_range]

/-- The excluded tags are the only condition. -/
lemma ofPredicates_withoutOthers (hpos : 0 < count) : ∃ keys : List Int64, keys.length = count ∧
    Plan.ofPredicates (withoutOthers count) .image = .ok (excludingPlan keys none) := by
  have hplain : ∀ ids : List UInt64, Plan.parts .image
      (ids.map fun id => .ofTag ⟨id, "", "", 0, none, 0, false⟩ true) = .ok [] := by
    intro ids
    induction ids with
    | nil => rfl
    | cons id rest ih => exact ih
  have hincluded : Plan.tagKeys false (withoutOthers count) = [] := by
    rw [List.eq_nil_iff_forall_not_mem]
    exact fun id hid => Bool.false_ne_true ((mem_tagKeys_withoutOthers h).mp hid).1
  have hexcluded : Plan.tagKeys true (withoutOthers count) ≠ [] := by
    rw [← List.length_pos_iff, length_tagKeys_withoutOthers h]
    exact hpos
  have hsatisfiable : (withoutOthers count).any Plan.isUnsatisfiable = false := by
    simp [withoutOthers, Plan.isUnsatisfiable, Predicate.ofTag]
  refine ⟨(Plan.tagKeys true (withoutOthers count)).map UInt64.toInt64, ?_,
    Plan.ofPredicates_eq_ok.mpr ⟨[], hplain _, ?_⟩⟩
  · rw [List.length_map, length_tagKeys_withoutOthers h]
  · simp [excludingPlan, hsatisfiable, Plan.tagConditions, hincluded, hexcluded]

/-- Both images of the sample carry none of the other tags. -/
lemma listed_withoutOthers {plan : Plan}
    (hplan : Plan.ofPredicates (withoutOthers count) .image = .ok plan) : Store.sample.listed plan ≠ [] := by
  have hdawn : Store.sample.Has (.image ⟨1, "dawn", "/dawn.png", 1, "unrated", 0, 0, 0⟩) := by
    change _ ∈ Store.sample.images
    decide
  have hp : Predicate.AllInterpreted .image (withoutOthers count) := by
    intro p hp hmeta
    obtain ⟨id, _, rfl⟩ := List.mem_map.mp hp
    cases hmeta
  refine List.ne_nil_of_mem ((Store.mem_found (Store.Reachable.empty.run _).consistent hp (Store.found_eq hplan)
    hdawn rfl).mpr ?_)
  intro p hp
  obtain ⟨id, hid, rfl⟩ := List.mem_map.mp hp
  intro _ hcarries
  have hlinks : ∀ l ∈ Store.sample.links, l.tag = 1 := by decide
  have hone : id = 1 := hlinks _ hcarries
  rw [hone] at hid
  exact absurd (toNat_of_mem_otherTags h hid) (by decide)

omit h in
lemma condition_withoutOthers {p : Predicate} (hp : p ∈ withoutOthers count) : p.condition = none := by
  obtain ⟨id, _, rfl⟩ := List.mem_map.mp hp
  rfl

omit h in
lemma allInterpreted_withoutOthers : Predicate.AllInterpreted .image (withoutOthers count) := by
  intro p hp hmeta
  rw [Predicate.isMeta, condition_withoutOthers hp] at hmeta
  cases hmeta

/-- The order of similarity is refused where the engine takes two values after those of the clause, but not four. -/
lemma refused_withoutOthers (target : HashPair) (hpos : 0 < count) (hroom : count + 2 ≤ valueLimit)
    (hfull : valueLimit < count + 4) :
    (∃ page, (Search.images (withoutOthers count) 0 0 (Database.ready .sample).source).result = .ok page) ∧
      ∃ text offset,
        (Search.images (nearTo target :: withoutOthers count) 0 0 (Database.ready .sample).source).result =
          .error (.store (.database (.tooManyValues text offset))) := by
  have hs : Store.Consistent .sample := (Store.Reachable.empty.run _).consistent
  obtain ⟨keys, hkeys, hplan⟩ := ofPredicates_withoutOthers h hpos
  have hordered : Plan.ofPredicates (nearTo target :: withoutOthers count) .image =
      .ok (excludingPlan keys (some target)) :=
    @Plan.ofPredicates_insert .image [] _ _ (nearTo target) _ target rfl rfl hplan rfl
  have hcount : ∀ similarTo, (excludingPlan keys similarTo).countStatement.IsSmall := fun similarTo =>
    isSmall_of_joinedPieces rfl (by rw [Plan.bound_countStatement, valueCount_excludingPlan]; omega)
      (Nat.le_of_ble_eq_true rfl)
  have hpage : ((excludingPlan keys none).pageStatement 0 0).IsSmall :=
    isSmall_of_joinedPieces rfl (by rw [Plan.bound_pageStatement, valueCount_excludingPlan, hkeys]; exact hroom)
      (Nat.le_of_ble_eq_true rfl)
  obtain ⟨text, offset, hfault⟩ : ∃ text offset,
      ((excludingPlan keys (some target)).pageStatement 0 0).fault? = some (.tooManyValues text offset) := by
    refine fault_of_surplus rfl rfl ?_
    rw [Plan.bound_pageStatement, valueCount_excludingPlan, hkeys]
    exact hfull
  have hlisted : (0 : UInt64).toNat < (Store.sample.listed (excludingPlan keys (some target))).length := by
    have hperm := Store.listed_similar_perm hs (excludingPlan keys none) target
    exact hperm.length_eq ▸ List.length_pos_iff.mpr (listed_withoutOthers h hplan)
  have hrefused : Engine.standard.windowRefusal? .sample (excludingPlan keys (some target)) 0 0 =
      some (.tooManyValues text offset) := by
    rw [Engine.windowRefusal_of_lt rfl (Engine.refusal_of_isSmall (hcount _)) hlisted, Engine.refusal_of_fault hfault]
  obtain ⟨_, _, _, hanswer⟩ := Store.exists_images hs hplan
  obtain ⟨_, _, _, hanswer'⟩ := Store.exists_images hs hordered
  have hwindow := @Engine.windowRefusal_of_isSmall .sample _ 0 0 (hcount none) hpage rfl
  exact ⟨⟨_, (hanswer .standard 0 0).trans (by rw [hwindow]; rfl)⟩, text, offset,
    (hanswer' .standard 0 0).trans (by rw [hrefused]; rfl)⟩

end Others

/-- The engine takes 32,766 values. A search without 32,764 of the tags binds as many with its window, and two more in
the order of similarity. -/
theorem similarity_refused :
    Store.Reachable .sample ∧ Predicate.AllInterpreted .image (withoutOthers 32764) ∧
      (∀ p ∈ withoutOthers 32764, p.condition = none) ∧ (nearTo ⟨0, 0⟩).IsInterpreted .image ∧
      (∃ page, (Search.images (withoutOthers 32764) 0 0 (Database.ready .sample).source).result = .ok page) ∧
      ∃ text offset,
        (Search.images (nearTo ⟨0, 0⟩ :: withoutOthers 32764) 0 0 (Database.ready .sample).source).result =
          .error (.store (.database (.tooManyValues text offset))) :=
  ⟨Store.Reachable.empty.run _, allInterpreted_withoutOthers, fun _ => condition_withoutOthers,
    nearTo_isInterpreted _, refused_withoutOthers (by decide) _ (by decide) (by decide) (by decide)⟩

end Search
end TagSearch
