import Mathlib.Data.Finset.Card
import TagSearch.Proofs.Search.Window
import TagSearch.Proofs.Store.Arrangement
import TagSearch.Proofs.Store.LastWrite

/-! Members of collections. However often an image is added to a collection, it is one member of it, of the weight that
was written last. Searches show a collection with the number of its members and the location of the first one. -/
namespace TagSearch

variable {s : Store} {history : List Event} {operations : List Operation} {m : Member} {collection image : UInt64}
  {weight : Int64}

/-- The member that an event writes. -/
def Event.member? (event : Event) : Option Member :=
  match event.operation, event.answer with
  | .change change, .ok _ => change.member?
  | _, _ => none

/-- The members that a history writes, in order. -/
def written (history : List Event) : List Member := history.filterMap Event.member?

/-- The images that a history adds to a collection, each once. -/
def added (history : List Event) (collection : UInt64) : Finset UInt64 :=
  (((written history).filter fun m => m.collection = collection).map Member.image).toFinset

/-- The weight that was written last for an image of a collection. -/
def lastWeight? (history : List Event) (collection image : UInt64) : Option Int64 :=
  ((written history).filter fun m => m.collection = collection ∧ m.image = image).getLast?.map Member.weight

/-- An image comes first in a collection: its weight, as written last, is the least, and of equally light images it is
the one of the least id. -/
def IsFirstIn (history : List Event) (collection image : UInt64) : Prop :=
  ∃ weight, lastWeight? history collection image = some weight ∧
    ∀ other heavier, lastWeight? history collection other = some heavier →
      weight < heavier ∨ weight = heavier ∧ image ≤ other

lemma mem_added : image ∈ added history collection ↔ ∃ weight, lastWeight? history collection image = some weight := by
  simp only [added, List.mem_toFinset, List.mem_map, List.mem_filter, decide_eq_true_eq]
  constructor
  · rintro ⟨m, ⟨hm, hcollection⟩, himage⟩
    have hne : ((written history).filter fun m => m.collection = collection ∧ m.image = image) ≠ [] :=
      List.ne_nil_of_mem (List.mem_filter.mpr ⟨hm, decide_eq_true ⟨hcollection, himage⟩⟩)
    exact ⟨_, by rw [lastWeight?, List.getLast?_eq_some_getLast hne, Option.map_some]⟩
  · rintro ⟨weight, hweight⟩
    obtain ⟨m, hlast, _⟩ := Option.map_eq_some_iff.mp hweight
    obtain ⟨hm, hkey⟩ := List.mem_filter.mp (List.mem_of_getLast? hlast)
    obtain ⟨hcollection, himage⟩ := of_decide_eq_true hkey
    exact ⟨m, ⟨hm, hcollection⟩, himage⟩

lemma lastWeight?_eq_some :
    lastWeight? history collection image = some weight ↔
      memberTable.last? history (collection, image) = some ⟨collection, image, weight⟩ := by
  have hwritten : written history = history.filterMap memberTable.rowOf? := rfl
  have hlast : lastWeight? history collection image =
      (memberTable.last? history (collection, image)).map Member.weight := by
    rw [lastWeight?, WrittenTable.last?, hwritten]
    simp only [memberTable, Prod.mk.injEq]
  rw [hlast, Option.map_eq_some_iff]
  constructor
  · rintro ⟨m, hm, rfl⟩
    obtain ⟨rfl, rfl⟩ : m.collection = collection ∧ m.image = image := Prod.mk.inj (WrittenTable.key_of_last? hm)
    exact hm
  · exact fun hm => ⟨_, hm, rfl⟩

namespace Store

/-- The members of all collections are what a history added, of the weights that it wrote last. -/
def Remembers (s : Store) (history : List Event) : Prop :=
  ∀ collection image weight,
    ⟨collection, image, weight⟩ ∈ s.members ↔ lastWeight? history collection image = some weight

lemma remembers_of_performAll (h : Database.blank.createTables.performAll operations = (.ready s, history)) :
    s.Remembers history := by
  have hremembers : memberTable.Remembers s history := WrittenTable.remembers_of_performAll h
  intro collection image weight
  rw [lastWeight?_eq_some]
  exact hremembers ⟨collection, image, weight⟩

lemma mem_membersOf : m ∈ s.membersOf collection ↔ m ∈ s.members ∧ m.collection = collection := by
  rw [membersOf, List.mem_filter, decide_eq_true_eq]

/-- Members of one collection are told apart by their images. -/
lemma nodup_images_membersOf (hs : s.Consistent) (collection : UInt64) :
    ((s.membersOf collection).map Member.image).Nodup := by
  refine (hs.members.nodup.filter _).map_on fun a ha b hb himage => ?_
  obtain ⟨ha, hca⟩ := mem_membersOf.mp ha
  obtain ⟨hb, hcb⟩ := mem_membersOf.mp hb
  exact hs.members.eq_of_key_eq ha hb (pairKey_inj.mpr ⟨hca.trans hcb.symm, himage⟩)

lemma length_membersOf_lt (hs : s.Consistent) (collection : UInt64) : (s.membersOf collection).length < 2 ^ 63 := by
  have hsub : (s.membersOf collection).map Member.image ⊆ s.images.map Image.id := by
    intro image himage
    obtain ⟨m, hm, rfl⟩ := List.mem_map.mp himage
    exact hs.memberImage m (mem_membersOf.mp hm).1
  have hle := ((nodup_images_membersOf hs collection).subperm hsub).length_le
  rw [List.length_map] at hle
  exact Nat.lt_of_le_of_lt hle hs.imageIds.length_lt

lemma Remembers.card_added (hs : s.Consistent) (h : s.Remembers history) (collection : UInt64) :
    (added history collection).card = (s.membersOf collection).length := by
  have hadded : added history collection = ((s.membersOf collection).map Member.image).toFinset := by
    ext image
    rw [mem_added, List.mem_toFinset, List.mem_map]
    constructor
    · rintro ⟨weight, hweight⟩
      exact ⟨_, mem_membersOf.mpr ⟨(h collection image weight).mpr hweight, rfl⟩, rfl⟩
    · rintro ⟨m, hm, rfl⟩
      obtain ⟨hmember, rfl⟩ := mem_membersOf.mp hm
      exact ⟨m.weight, (h m.collection m.image m.weight).mp hmember⟩
  rw [hadded, List.toFinset_card_of_nodup (nodup_images_membersOf hs collection), List.length_map]

/-- The first member of a collection lends it its location. -/
lemma exists_first (hs : s.Consistent) (hne : s.membersOf collection ≠ []) :
    ∃ m ∈ s.membersOf collection, (∀ other ∈ s.membersOf collection, lighterFirst m other = true) ∧
      ∃ i ∈ s.images, i.id = m.image ∧ (s.memberLocations collection).head? = some i.location := by
  have hperm := List.mergeSort_perm (s.membersOf collection) lighterFirst
  have hsorted := List.pairwise_mergeSort lighterFirst_trans lighterFirst_total (s.membersOf collection)
  cases hmembers : (s.membersOf collection).mergeSort lighterFirst with
  | nil => exact absurd (hmembers ▸ hperm).nil_eq.symm hne
  | cons m rest =>
    rw [hmembers] at hperm hsorted
    have hm := hperm.mem_iff.mp List.mem_cons_self
    refine ⟨m, hm, fun other hother => ?_, ?_⟩
    · exact le_of_sorted lighterFirst_total hsorted (hperm.mem_iff.mpr hother)
    · obtain ⟨i, hi, himage⟩ := List.mem_map.mp (hs.memberImage m (mem_membersOf.mp hm).1)
      have hfind := find?_of_mem hs.imageIds.nodup hi
      rw [himage] at hfind
      refine ⟨i, hi, himage, ?_⟩
      simp only [memberLocations, hmembers, List.filterMap_cons, hfind, Option.map_some, List.head?_cons]

lemma head?_memberLocations_eq_none (hs : s.Consistent) :
    (s.memberLocations collection).head? = none ↔ s.membersOf collection = [] := by
  constructor
  · intro hnone
    by_contra hne
    obtain ⟨_, _, _, i, _, _, hsome⟩ := exists_first hs hne
    cases hnone.symm.trans hsome
  · intro hnil
    rw [memberLocations, hnil, List.mergeSort_nil]
    rfl

section Shown

variable {c : CollectionSummary} (hs : s.Consistent) (h : s.collectionSummary? c.id = some c)

include h

lemma preview_eq : c.preview = (s.memberLocations c.id).head? := by
  obtain ⟨r, _, hsummary⟩ := Option.map_eq_some_iff.mp h
  exact (congrArg CollectionSummary.preview hsummary).symm

include hs

lemma toNat_members : c.members.toNat = (s.membersOf c.id).length := by
  obtain ⟨r, _, hsummary⟩ := Option.map_eq_some_iff.mp h
  have hmembers : c.members = UInt64.ofNat (s.membersOf c.id).length :=
    (congrArg CollectionSummary.members hsummary).symm
  rw [hmembers, UInt64.toNat_ofNat_of_lt' (Nat.lt_trans (length_membersOf_lt hs c.id) (by decide))]

/-- A collection without a preview has no members. -/
lemma preview_eq_none : c.preview = none ↔ c.members = 0 := by
  rw [preview_eq h, head?_memberLocations_eq_none hs, ← List.length_eq_zero_iff, ← toNat_members hs h,
    ← UInt64.toNat_inj, UInt64.toNat_zero]

end Shown

lemma Remembers.isFirstIn (hs : s.Consistent) (h : s.Remembers history) (hm : m ∈ s.membersOf collection)
    (hfirst : ∀ other ∈ s.membersOf collection, lighterFirst m other = true) :
    IsFirstIn history collection m.image := by
  obtain ⟨hmember, rfl⟩ := mem_membersOf.mp hm
  refine ⟨m.weight, (h m.collection m.image m.weight).mp hmember, fun other heavier hother => ?_⟩
  have hother := (h m.collection other heavier).mpr hother
  have hle := hfirst _ (mem_membersOf.mpr ⟨hother, rfl⟩)
  have hlt := hs.imageIds.toNat_lt (hs.memberImage _ hmember)
  have hlt' := hs.imageIds.toNat_lt (hs.memberImage _ hother)
  simpa [lighterFirst, toInt64_le hlt hlt', UInt64.le_iff_toNat_le] using hle

end Store

/-- Whatever was done to a catalog, a collection that a search shows has as many members as different images were added
to it, however often and with whatever weights. Its preview is the location of the first of them, and it has none
exactly when it has no members. -/
theorem collections_describe_members {operations : List Operation} {predicates : List Predicate} {start stride : UInt64}
    {page : ResultPage CollectionSummary} {c : CollectionSummary}
    (h : Database.blank.createTables.performAll operations = (.ready s, history))
    (hpage : (Search.collections predicates start stride (Database.ready s).source).result = .ok page)
    (hc : c ∈ page.items) :
    c.members.toNat = (added history c.id).card ∧ (c.preview = none ↔ c.members = 0) ∧
      ∀ location, c.preview = some location →
        ∃ i ∈ s.images, i.location = location ∧ IsFirstIn history c.id i.id := by
  have hremembers := Store.remembers_of_performAll h
  have hs := consistent_of_performAll h
  obtain ⟨entries, _, hentries, rfl⟩ := Store.page_of_collections hs hpage
  have hsummary := hentries c (mem_of_mem_slice hc)
  have hpreview := Store.preview_eq hsummary
  refine ⟨?_, Store.preview_eq_none hs hsummary, fun location hlocation => ?_⟩
  · rw [Store.toNat_members hs hsummary, hremembers.card_added hs]
  · rw [hpreview] at hlocation
    have hne : s.membersOf c.id ≠ [] := fun hnil => by
      cases hlocation.symm.trans ((Store.head?_memberLocations_eq_none hs).mpr hnil)
    obtain ⟨m, hm, hfirst, i, hi, himage, hhead⟩ := Store.exists_first hs hne
    refine ⟨i, hi, Option.some.inj (hhead.symm.trans hlocation), ?_⟩
    rw [himage]
    exact hremembers.isFirstIn hs hm hfirst

/-- A collection of two images. One of them is added twice, and an image that does not exist is refused. -/
def albumOperations : List Operation :=
  [.change (.createImage "dawn" "/dawn.png" 1), .change (.createImage "dusk" "/dusk.png" 1),
    .change (.createCollection "album" "" 1), .change (.addMember 1 2 (-1)), .change (.addMember 1 1 5),
    .change (.addMember 1 9 (-2)), .change (.addMember 1 1 (-1))]

def albumStore : Store :=
  { Store.empty with
    images := [⟨1, "dawn", "/dawn.png", 1, "unrated", 0, 0, 0⟩, ⟨2, "dusk", "/dusk.png", 1, "unrated", 0, 0, 0⟩]
    collections := [⟨1, "album", "", 1⟩]
    members := [⟨1, 1, -1⟩, ⟨1, 2, -1⟩] }

/-- Of two images of the same weight, the older one is the preview. -/
theorem album_of_two :
    ∃ history page, ∃ c : CollectionSummary,
      Database.blank.createTables.performAll albumOperations = (.ready albumStore, history) ∧
      (Search.collections [] 0 0 (Database.ready albumStore).source).result = .ok page ∧ c ∈ page.items ∧
      c.members.toNat = 2 ∧ c.preview = some "/dawn.png" := by
  have hrun : Database.blank.createTables.performAll albumOperations =
      (.ready albumStore, (Database.blank.createTables.performAll albumOperations).2) := Prod.ext (by decide) rfl
  have hs := consistent_of_performAll hrun
  have hplan : Plan.ofPredicates [] .collection = .ok ⟨.collection, .all [], none⟩ := rfl
  obtain ⟨entries, _, hids, hresult⟩ := Store.exists_collections hs hplan
  have hpage := hresult .standard 0 0
  rw [Engine.windowRefusal_of_few Sql.areFew_nil rfl] at hpage
  have hlisted : 1 ∈ albumStore.listed ⟨.collection, .all [], none⟩ :=
    (Store.mem_listed hs).mpr ⟨.collection ⟨1, "album", "", 1⟩, .head _, rfl, rfl, rfl⟩
  rw [← hids] at hlisted
  obtain ⟨c, hc, hid⟩ := List.mem_map.mp hlisted
  obtain ⟨hmembers, hnone, hfirst⟩ := collections_describe_members hrun hpage hc
  rw [hid] at hmembers hfirst
  have hcard : (added (Database.blank.createTables.performAll albumOperations).2 1).card = 2 := by decide +kernel
  rw [hcard] at hmembers
  refine ⟨_, _, c, hrun, hpage, hc, hmembers, ?_⟩
  cases hpreview : c.preview with
  | none =>
    rw [hnone.mp hpreview] at hmembers
    cases hmembers
  | some location =>
    obtain ⟨i, hi, rfl, weight, hweight, hleast⟩ := hfirst location hpreview
    rcases List.mem_cons.mp hi with rfl | hi
    · rfl
    · -- the younger image is as light as the older one
      rw [List.mem_singleton.mp hi] at hweight hleast
      have hdawn : lastWeight? (Database.blank.createTables.performAll albumOperations).2 1 1 = some (-1) := by
        decide +kernel
      have hdusk : lastWeight? (Database.blank.createTables.performAll albumOperations).2 1 2 = some (-1) := by
        decide +kernel
      obtain rfl := Option.some.inj (hdusk.symm.trans hweight)
      exact absurd (hleast 1 (-1) hdawn) (by decide)

end TagSearch
