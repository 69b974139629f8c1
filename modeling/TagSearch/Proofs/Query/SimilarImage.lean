import TagSearch.Proofs.Query.Literal
import TagSearch.Proofs.Query.Searchable
import TagSearch.Proofs.Search.Similarity
import TagSearch.Proofs.Similarity
import TagSearch.Proofs.Store.LastWrite

/-! Similarity to an image. The id of an image stands for the hashes that were stored for it last, and a search for them
lists the image before all images with other hashes or none. -/
namespace TagSearch

/-- The first metatag for similarity of a list asks for the given pair. -/
def OrdersBy (pair : HashPair) (predicates : List Predicate) : Prop :=
  ∃ before p after, predicates = before ++ p :: after ∧
    p.condition = some ⟨"ordersimilar", .hashes pair, .eq⟩ ∧
    ∀ q ∈ before, ∀ c, q.condition = some c → c.key ≠ "ordersimilar"

/-- The plan orders its pages by the first pair that is asked for. -/
lemma similarTo_of_ordersBy {pair : HashPair} {predicates : List Predicate} {plan : Plan}
    (hp : Predicate.AllInterpreted .image predicates) (horders : OrdersBy pair predicates)
    (hplan : Plan.ofPredicates predicates .image = .ok plan) : plan.similarTo = some pair := by
  obtain ⟨before, p, after, rfl, hc, hno⟩ := horders
  have hinterpreted : p.IsInterpreted .image :=
    hp p (List.mem_append_right _ List.mem_cons_self) (by rw [Predicate.isMeta, hc]; rfl)
  obtain ⟨c, hc', hpart⟩ := Plan.partOf_of_hashes hinterpreted (by rw [hc]; rfl)
  obtain ⟨found, hfound, rfl⟩ := Plan.ofPredicates_eq_ok.mp hplan
  obtain ⟨first, second, hfirst, hsecond, rfl⟩ := Plan.parts_append.mp hfound
  obtain ⟨part, more, hpart', _, rfl⟩ := (Plan.parts_cons_eq_ok hc').mp hsecond
  obtain rfl := Except.ok.inj (hpart.symm.trans hpart')
  -- the metatags in front order nothing
  have hnone := Plan.similarTo_eq_none (Plan.ofPredicates_eq_ok.mpr ⟨first, hfirst, rfl⟩) hno
  rw [List.head?_eq_none_iff] at hnone
  simp only [List.filterMap_append, hnone, List.nil_append, List.filterMap_cons, Plan.Part.order?, List.head?_cons]

/-- Of two entries of a list, one stands first if the other cannot. -/
lemma idxOf_lt_of_pairwise {α : Type} [DecidableEq α] {r : α → α → Prop} {entries : List α} (h : entries.Pairwise r)
    {a b : α} (ha : a ∈ entries) (hb : b ∈ entries) (hne : a ≠ b) (hnot : ¬ r b a) :
    entries.idxOf a < entries.idxOf b := by
  have hlt := List.idxOf_lt_length_of_mem ha
  have hlt' := List.idxOf_lt_length_of_mem hb
  rcases Nat.lt_trichotomy (entries.idxOf a) (entries.idxOf b) with hbefore | heq | hbehind
  · exact hbefore
  · have hget := List.getElem_idxOf hlt
    simp only [heq, List.getElem_idxOf hlt'] at hget
    exact absurd hget.symm hne
  · have hr := List.pairwise_iff_getElem.mp h _ _ hlt' hlt hbehind
    rw [List.getElem_idxOf, List.getElem_idxOf] at hr
    exact absurd hr hnot

namespace Store

variable {s : Store} {pair : HashPair} {i j : UInt64}

/-- No image with other hashes or none is nearer to a pair than an image that has it. -/
lemma not_nearer_of_stored (hi : s.imageHashes? i = some pair) (hj : s.imageHashes? j ≠ some pair) :
    ¬ s.Nearer pair j i := by
  rw [Nearer, hi]
  cases hother : s.imageHashes? j with
  | none => exact id
  | some other =>
    have hpositive : other.distance pair ≠ 0 := by
      intro hzero
      rw [hother, HashPair.distance_eq_zero.mp hzero] at hj
      exact hj rfl
    simp only [HashPair.distance_self]
    omega

end Store

namespace Query
open Text

section ImageId

variable {source : Source} {name value : String} {image : UInt64} {pair : HashPair}

/-- An id that is written in digits stands for the stored hashes of its image. -/
lemma readSimilarity_of_image (hvalue : Denotes value.toList image.toNat)
    (hstored : source.imageHashes image = .ok (some pair)) :
    (Metatag.readSimilarity name value source).result = .ok pair := by
  have hasked : (Inquiry.imageHashes image source).result = .ok (some pair) := by
    rw [Inquiry.imageHashes, Inquiry.ask, hstored]
    rfl
  rw [Metatag.readSimilarity, Metatag.splitPoint?_eq_none (hvalue.notMem rfl)]
  simp only [(word?_eq_some (hvalue.notMem rfl)).mpr hvalue, Inquiry.result_bind, hasked]
  rfl

theorem parse_imageId (hstored : source.imageHashes image = .ok (some pair)) :
    (parse ("ordersimilar:" ++ toString image) .image source).result = .ok [Search.nearTo pair] := by
  have hvalue : Denotes (toString image).toList image.toNat := denotes_toString image.toNat
  have htext : "ordersimilar:" ++ toString image = writeMetatag false "ordersimilar" "" (toString image) := by
    simp [writeMetatag]
  rw [htext, result_parse_writeMetatag false lookup_ordersimilar ⟨rfl, .inr ⟨rfl, rfl⟩⟩
    fun c hc => isValueChar_of_isDigit (hvalue.2.1 c hc), Metatag.readValue, Inquiry.result_bind,
    readSimilarity_of_image hvalue hstored]
  rfl

theorem parse_pair (source : Source) (pair : HashPair) :
    (parse ("ordersimilar:" ++ pair.render) .image source).result = .ok [Search.nearTo pair] := by
  have htext : "ordersimilar:" ++ pair.render = writeMetatag false "ordersimilar" "" pair.render := by
    simp [writeMetatag]
  rw [htext]
  exact parse_hashes ⟨rfl, .inr ⟨rfl, rfl⟩⟩ (writtenAs_render pair)

end ImageId

/-- A list that texts give is ordered by the pair of its only metatag for similarity. -/
lemma IsParsed.ordersBy {predicates : List Predicate} {p : Predicate} {pair : HashPair}
    (h : IsParsed .image predicates) (hp : p ∈ predicates)
    (hc : p.condition = some ⟨"ordersimilar", .hashes pair, .eq⟩) : OrdersBy pair predicates := by
  have hkey : ∀ q ∈ predicates, ∀ c, q.condition = some c → q.name = c.key := by
    intro q hq c hqc
    obtain ⟨d, hd, hname, _⟩ := (h.allInterpreted q hq (by rw [Predicate.isMeta, hqc]; rfl)).reads
    obtain rfl := Option.some.inj (hqc.symm.trans hd)
    exact hname
  obtain ⟨before, after, rfl, hbefore⟩ := (mem_firstOfKey _).mp (h.metatag_first hp hc)
  refine ⟨before, p, after, rfl, hc, fun q hq c hqc heq => hbefore q hq ?_⟩
  rw [hkey q (List.mem_append_left _ hq) c hqc, hkey p hp _ hc, heq]

/-- Similarity to an image is similarity to the hashes that were stored for it last, whatever was done to the catalog.
A search for them that finds the image lists it before every image with other hashes or none. -/
theorem similar_to_image {operations : List Operation} {s : Store} {history : List Event} {image : UInt64}
    {pair : HashPair} (h : Database.blank.createTables.performAll operations = (.ready s, history))
    (hpair : lastPair? history image = some pair) :
    (parse ("ordersimilar:" ++ toString image) .image (Database.ready s).source).result =
        .ok [Search.nearTo pair] ∧
      (parse ("ordersimilar:" ++ pair.render) .image (Database.ready s).source).result =
        .ok [Search.nearTo pair] ∧
      (∀ predicates, IsParsed .image predicates →
        (∃ p ∈ predicates, p.condition = some ⟨"ordersimilar", .hashes pair, .eq⟩) →
          Predicate.AllInterpreted .image predicates ∧ OrdersBy pair predicates) ∧
      ∀ predicates, Predicate.AllInterpreted .image predicates → OrdersBy pair predicates →
        ∃ ids, s.found .image predicates = .ok ids ∧
          (∀ shown, Search.wholeIds .image predicates (Database.ready s).source = .ok shown → shown = ids) ∧
          (image ∈ ids → ∀ other ∈ ids, s.imageHashes? other ≠ some pair →
            ids.idxOf image < ids.idxOf other) := by
  have hs := consistent_of_performAll h
  have hstored : s.imageHashes? image = some pair := (imageHashes_of_performAll h image).trans hpair
  refine ⟨parse_imageId (congrArg Except.ok hstored), parse_pair _ pair, ?_, fun predicates hp horders => ?_⟩
  · rintro predicates hparsed ⟨p, hp, hc⟩
    exact ⟨hparsed.allInterpreted, hparsed.ordersBy hp hc⟩
  · obtain ⟨plan, hplan⟩ := hp.exists_plan
    have hsimilar := similarTo_of_ordersBy hp horders hplan
    refine ⟨s.listed plan, Store.found_eq hplan, fun shown hshown => ?_, fun himage other hother hdiffers => ?_⟩
    · rw [Search.wholeIds_eq hs hplan] at hshown
      exact (Engine.unlessRefused_eq_ok.mp hshown).2.symm
    · have hne : image ≠ other := fun heq => hdiffers (heq ▸ hstored)
      exact idxOf_lt_of_pairwise (Store.listed_nearest hs (Plan.kind_of_ofPredicates hplan) hsimilar) himage hother hne
        (Store.not_nearer_of_stored hstored hdiffers)

/-- Three images. The hashes of the first one are stored twice, and the last one has none. -/
def portraitOperations : List Operation :=
  [.change (.createImage "dawn" "/dawn.png" 1), .change (.createImage "dusk" "/dusk.png" 1),
    .change (.createImage "noon" "/noon.png" 1), .change (.setImageHashes 1 ⟨0, 0⟩),
    .change (.setImageHashes 2 ⟨1, 0⟩), .change (.setImageHashes 1 ⟨UInt64.ofNat (2 ^ 63), 0⟩)]

def portraits : Store :=
  { Store.empty with
    images := [⟨1, "dawn", "/dawn.png", 1, "unrated", 0, 0, 0⟩, ⟨2, "dusk", "/dusk.png", 1, "unrated", 0, 0, 0⟩,
      ⟨3, "noon", "/noon.png", 1, "unrated", 0, 0, 0⟩]
    hashes := [⟨1, ⟨UInt64.ofNat (2 ^ 63), 0⟩⟩, ⟨2, ⟨1, 0⟩⟩] }

lemma portraits_run : Database.blank.createTables.performAll portraitOperations =
    (.ready portraits, (Database.blank.createTables.performAll portraitOperations).2) :=
  Prod.ext (by decide +kernel) rfl

/-- A search for all images, in the order of a pair, lists them all. -/
lemma portraits_shown {predicates : List Predicate} {pair : HashPair}
    (hplan : Plan.ofPredicates predicates .image = .ok ⟨.image, .all [], some pair⟩) :
    Search.wholeIds .image predicates (Database.ready portraits).source =
        .ok (portraits.listed ⟨.image, .all [], some pair⟩) ∧
      ∀ i ∈ portraits.images, i.id ∈ portraits.listed ⟨.image, .all [], some pair⟩ := by
  have hs := consistent_of_performAll portraits_run
  refine ⟨?_, fun i hi => (Store.mem_listed hs).mpr ⟨.image i, hi, rfl, rfl, rfl⟩⟩
  rw [Search.wholeIds_eq hs hplan, Engine.windowRefusal_of_few Sql.areFew_nil rfl]
  rfl

/-- An image with a hash of the highest bit stands before the images with other hashes and with none. -/
theorem portraits_nearest :
    ∃ ids, (parse "ordersimilar:1" .image (Database.ready portraits).source).result =
        .ok [Search.nearTo ⟨UInt64.ofNat (2 ^ 63), 0⟩] ∧
      (parse "ordersimilar:9223372036854775808.0" .image (Database.ready portraits).source).result =
        .ok [Search.nearTo ⟨UInt64.ofNat (2 ^ 63), 0⟩] ∧
      Search.wholeIds .image [Search.nearTo ⟨UInt64.ofNat (2 ^ 63), 0⟩] (Database.ready portraits).source =
        .ok ids ∧
      ids.idxOf 1 < ids.idxOf 2 ∧ ids.idxOf 1 < ids.idxOf 3 := by
  have hlast : lastPair? (Database.blank.createTables.performAll portraitOperations).2 1 =
      some ⟨UInt64.ofNat (2 ^ 63), 0⟩ := by decide +kernel
  obtain ⟨himage, hpair, _, hsearch⟩ := similar_to_image portraits_run hlast
  obtain ⟨ids, _, hids, hfirst⟩ := hsearch [Search.nearTo ⟨UInt64.ofNat (2 ^ 63), 0⟩]
    (fun p hp _ => List.mem_singleton.mp hp ▸ Search.nearTo_isInterpreted _)
    ⟨[], _, [], rfl, rfl, fun _ hq => absurd hq List.not_mem_nil⟩
  have hplan : Plan.ofPredicates [Search.nearTo ⟨UInt64.ofNat (2 ^ 63), 0⟩] .image =
      .ok ⟨.image, .all [], some ⟨UInt64.ofNat (2 ^ 63), 0⟩⟩ := rfl
  obtain ⟨hshown, hall⟩ := portraits_shown hplan
  obtain rfl := hids _ hshown
  obtain ⟨hdawn, hrest⟩ := List.forall_mem_cons.mp hall
  obtain ⟨hdusk, hrest⟩ := List.forall_mem_cons.mp hrest
  obtain ⟨hnoon, _⟩ := List.forall_mem_cons.mp hrest
  exact ⟨_, himage, hpair, hshown, hfirst hdawn 2 hdusk (by decide +kernel), hfirst hdawn 3 hnoon (by decide +kernel)⟩

/-- Of two metatags for similarity in a list, the first one orders the images. The image of the second one is not
listed first. -/
theorem portraits_by_first :
    ∃ history ids, Database.blank.createTables.performAll portraitOperations = (.ready portraits, history) ∧
      lastPair? history 1 = some ⟨UInt64.ofNat (2 ^ 63), 0⟩ ∧ lastPair? history 2 = some ⟨1, 0⟩ ∧
      Predicate.AllInterpreted .image [Search.nearTo ⟨1, 0⟩, Search.nearTo ⟨UInt64.ofNat (2 ^ 63), 0⟩] ∧
      Search.wholeIds .image [Search.nearTo ⟨1, 0⟩, Search.nearTo ⟨UInt64.ofNat (2 ^ 63), 0⟩]
        (Database.ready portraits).source = .ok ids ∧
      1 ∈ ids ∧ ids.idxOf 2 < ids.idxOf 1 := by
  have hp : Predicate.AllInterpreted .image [Search.nearTo ⟨1, 0⟩, Search.nearTo ⟨UInt64.ofNat (2 ^ 63), 0⟩] := by
    intro p hp _
    rcases List.mem_pair.mp hp with rfl | rfl
    · exact Search.nearTo_isInterpreted _
    · exact Search.nearTo_isInterpreted _
  have hplan : Plan.ofPredicates [Search.nearTo ⟨1, 0⟩, Search.nearTo ⟨UInt64.ofNat (2 ^ 63), 0⟩] .image =
      .ok ⟨.image, .all [], some ⟨1, 0⟩⟩ := rfl
  obtain ⟨hshown, hall⟩ := portraits_shown hplan
  obtain ⟨hdawn, hrest⟩ := List.forall_mem_cons.mp hall
  obtain ⟨hdusk, _⟩ := List.forall_mem_cons.mp hrest
  have hnearest := Store.listed_nearest (consistent_of_performAll portraits_run) (Plan.kind_of_ofPredicates hplan) rfl
  have hstored : portraits.imageHashes? 2 = some ⟨1, 0⟩ := by decide +kernel
  have hdiffers : portraits.imageHashes? 1 ≠ some ⟨1, 0⟩ := by decide +kernel
  exact ⟨_, _, portraits_run, by decide +kernel, by decide +kernel, hp, hshown, hdawn,
    idxOf_lt_of_pairwise hnearest hdusk hdawn (by decide) (Store.not_nearer_of_stored hstored hdiffers)⟩

end Query
end TagSearch
