import TagSearch.CommandLine.Run
import TagSearch.Proofs.Store.LastWrite
import TagSearch.Proofs.Workspace

/-! Hashing passes. A pass reads the picture of every image that has no hashes, stores the pairs of those that it can
read and counts the rest. It accounts for all of them, whatever the pair of a picture is and in whatever order the
pictures are read, and a pass after it finds only those that cannot be read. -/
namespace TagSearch
namespace Store

variable {s t : Store} {image : UInt64} {pair : HashPair} {found others : List (UInt64 × Option HashPair)}
  {pairOf : Picture → HashPair} {picture : String → Option Picture}

/-- The hashes among the results of a pass. -/
def readHashes (found : List (UInt64 × Option HashPair)) : List StoredHash :=
  found.filterMap fun result => result.2.map (StoredHash.mk result.1)

/-- The catalog with the hashes among some results. -/
def withHashes (s : Store) (found : List (UInt64 × Option HashPair)) : Store :=
  { s with hashes := (readHashes found).foldl (fun table h => Ordered.put StoredHash.key h table) s.hashes }

/-- The number of pictures that could not be read. -/
def failures (found : List (UInt64 × Option HashPair)) : ℕ := found.countP fun result => result.2.isNone

lemma readHashes_cons_some (image : UInt64) (pair : HashPair) (rest : List (UInt64 × Option HashPair)) :
    readHashes ((image, some pair) :: rest) = ⟨image, pair⟩ :: readHashes rest := rfl

lemma withHashes_cons_some (image : UInt64) (pair : HashPair) (rest : List (UInt64 × Option HashPair)) :
    s.withHashes ((image, some pair) :: rest) =
      { s with hashes := Ordered.put StoredHash.key ⟨image, pair⟩ s.hashes }.withHashes rest := rfl

lemma apply_setImageHashes (h : image ∈ s.images.map Image.id) (pair : HashPair) :
    s.apply (.setImageHashes image pair) =
      .ok ({ s with hashes := Ordered.put StoredHash.key ⟨image, pair⟩ s.hashes }, none) := by
  rw [apply, setImageHashes, if_pos (hasImage_iff.mpr h)]
  rfl

/-- Results for images of the catalog are stored, and each of them is counted. -/
lemma storeHashes_ready (h : ∀ result ∈ found, result.1 ∈ s.images.map Image.id) (report : HashReport) :
    (Database.ready s).storeHashes report found =
      .ok (.ready (s.withHashes found),
        ⟨report.hashed + (readHashes found).length, report.failed + failures found⟩) := by
  induction found generalizing s report with
  | nil => rfl
  | cons result rest ih =>
    obtain ⟨image, pair⟩ := result
    rw [List.forall_mem_cons] at h
    cases pair with
    | none =>
      rw [Database.storeHashes, ih h.2, failures, failures, List.countP_cons_of_pos rfl, Nat.add_right_comm]
      rfl
    | some pair =>
      have hrest := @ih { s with hashes := Ordered.put StoredHash.key ⟨image, pair⟩ s.hashes } h.2
        { report with hashed := report.hashed + 1 }
      have hcount : report.hashed + ((readHashes rest).length + 1) = report.hashed + 1 + (readHashes rest).length := by
        omega
      rw [withHashes_cons_some, readHashes_cons_some, List.length_cons, hcount, Database.storeHashes, Database.apply,
        apply_setImageHashes h.1]
      exact hrest

lemma Reachable.withHashes (hs : s.Reachable) (h : ∀ result ∈ found, result.1 ∈ s.images.map Image.id) :
    (s.withHashes found).Reachable := by
  induction found generalizing s with
  | nil => exact hs
  | cons result rest ih =>
    obtain ⟨image, pair⟩ := result
    rw [List.forall_mem_cons] at h
    cases pair with
    | none => exact ih hs h.2
    | some pair => exact ih (.change hs (apply_setImageHashes h.1 pair)) h.2

lemma mem_readHashes {h : StoredHash} : h ∈ readHashes found ↔ (h.image, some h.pair) ∈ found := by
  rw [readHashes, List.mem_filterMap]
  constructor
  · rintro ⟨⟨image, pair⟩, hmem, hmap⟩
    obtain ⟨pair, rfl, rfl⟩ := Option.map_eq_some_iff.mp hmap
    exact hmem
  · exact fun hmem => ⟨_, hmem, rfl⟩

/-- Results for different images are hashes for different images. -/
lemma pairwise_readHashes (h : (found.map Prod.fst).Nodup) :
    (readHashes found).Pairwise fun a b => a.key ≠ b.key := by
  refine List.pairwise_filterMap.mpr ((List.pairwise_map.mp h).imp ?_)
  rintro ⟨image, pair⟩ ⟨image', pair'⟩ hne a ha b hb heq
  obtain ⟨pair, rfl, rfl⟩ := Option.map_eq_some_iff.mp ha
  obtain ⟨pair', rfl, rfl⟩ := Option.map_eq_some_iff.mp hb
  exact hne (UInt64.toNat_inj.mp heq)

lemma mem_withHashes (hs : s.Consistent) (hfound : (found.map Prod.fst).Nodup) {h : StoredHash} :
    h ∈ (s.withHashes found).hashes ↔
      (h.image, some h.pair) ∈ found ∨ (h ∈ s.hashes ∧ ∀ pair, (h.image, some pair) ∉ found) := by
  rw [withHashes, Ordered.mem_foldl_put_of_pairwise _ (pairwise_readHashes hfound) hs.hashes, mem_readHashes]
  refine or_congr_right (and_congr_right fun _ => ?_)
  constructor
  · intro hother pair hmem
    exact hother ⟨h.image, pair⟩ (mem_readHashes.mpr hmem) rfl
  · intro hother r hr heq
    have himage : h.image = r.image := UInt64.toNat_inj.mp heq
    exact hother r.pair (himage ▸ mem_readHashes.mp hr)

/-- Every result is stored or counted as failed. -/
lemma length_readHashes_add_failures (found : List (UInt64 × Option HashPair)) :
    (readHashes found).length + failures found = found.length := by
  induction found with
  | nil => rfl
  | cons result rest ih =>
    obtain ⟨image, pair⟩ := result
    cases pair with
    | none =>
      rw [failures, List.countP_cons_of_pos rfl, ← Nat.add_assoc, List.length_cons, ← ih]
      rfl
    | some pair =>
      rw [readHashes_cons_some, failures, List.countP_cons_of_neg Bool.false_ne_true, List.length_cons,
        List.length_cons, Nat.add_right_comm, ← ih]
      rfl

lemma readHashes_eq_nil (h : ∀ result ∈ found, result.2 = none) : readHashes found = [] := by
  rw [readHashes, List.filterMap_eq_nil_iff]
  intro result hresult
  rw [h result hresult, Option.map_none]

/-- The order of the results does not matter. -/
lemma withHashes_eq_of_perm (hs : s.Consistent) (hfound : (found.map Prod.fst).Nodup) (h : others.Perm found) :
    s.withHashes others = s.withHashes found := by
  have hothers : (others.map Prod.fst).Nodup := (h.map Prod.fst).nodup_iff.mpr hfound
  have hordered : ∀ results : List (UInt64 × Option HashPair),
      Ordered.IsOrdered StoredHash.key (s.withHashes results).hashes :=
    fun results => Ordered.isOrdered_foldl_put _ _ hs.hashes
  have hhashes : (s.withHashes others).hashes = (s.withHashes found).hashes := by
    refine (hordered others).ext (hordered found) fun row => ?_
    rw [mem_withHashes hs hothers, mem_withHashes hs hfound]
    simp only [h.mem_iff]
  rw [withHashes, withHashes, Store.mk.injEq]
  exact ⟨rfl, rfl, rfl, rfl, rfl, rfl, hhashes⟩

/-- The images that have no hashes, oldest first. -/
def unhashed (s : Store) : List Image := s.images.filter fun i => s.imageHashes? i.id = none

/-- What a pass finds for each image without hashes. -/
def results (s : Store) (pairOf : Picture → HashPair) (picture : String → Option Picture) :
    List (UInt64 × Option HashPair) :=
  s.unhashed.map fun i => (i.id, (picture i.location).map pairOf)

lemma mem_unhashed {i : Image} : i ∈ s.unhashed ↔ i ∈ s.images ∧ s.imageHashes? i.id = none := by
  rw [unhashed, List.mem_filter, decide_eq_true_eq]

lemma imagesWithoutHashes_eq (s : Store) : s.imagesWithoutHashes = s.unhashed.map fun i => (i.id, i.location) := by
  rw [imagesWithoutHashes, unhashed]
  congr 1
  refine List.filter_congr fun i _ => ?_
  rw [imageHashes?, Bool.eq_iff_iff]
  simp

lemma hashMissing_ready (s : Store) (pairOf : Picture → HashPair) (picture : String → Option Picture) :
    (Database.ready s).hashMissingBy pairOf picture =
      (Database.ready s).storeHashes ⟨0, 0⟩ (s.results pairOf picture) := by
  have hpending : (Database.ready s).imagesWithoutHashes = .ok (s.unhashed.map fun i => (i.id, i.location)) :=
    congrArg Except.ok s.imagesWithoutHashes_eq
  rw [Database.hashMissingBy, hpending, results]
  exact congrArg ((Database.ready s).storeHashes ⟨0, 0⟩) List.map_map

lemma failures_results (s : Store) (pairOf : Picture → HashPair) (picture : String → Option Picture) :
    failures (s.results pairOf picture) = (s.unhashed.filter fun i => (picture i.location).isNone).length := by
  rw [failures, results, List.countP_map, ← List.countP_eq_length_filter]
  exact List.countP_congr fun i _ => by simp

lemma nodup_results (hs : s.Consistent) (pairOf : Picture → HashPair) (picture : String → Option Picture) :
    ((s.results pairOf picture).map Prod.fst).Nodup := by
  rw [results, List.map_map]
  exact hs.imageIds.nodup.sublist (List.filter_sublist.map _)

/-- The images of a pass are told apart by their ids. -/
lemma mem_results (hs : s.Consistent) {i : Image} (hi : i ∈ s.images) {pair : Option HashPair} :
    (i.id, pair) ∈ s.results pairOf picture ↔
      s.imageHashes? i.id = none ∧ pair = (picture i.location).map pairOf := by
  rw [results, List.mem_map]
  constructor
  · rintro ⟨j, hj, heq⟩
    obtain ⟨hid, rfl⟩ := Prod.mk.inj heq
    obtain ⟨hj, hnone⟩ := mem_unhashed.mp hj
    obtain rfl := List.inj_on_of_nodup_map hs.imageIds.nodup hj hi hid
    exact ⟨hnone, rfl⟩
  · rintro ⟨hnone, rfl⟩
    exact ⟨i, mem_unhashed.mpr ⟨hi, hnone⟩, rfl⟩

lemma mem_images_of_mem_results {result : UInt64 × Option HashPair} (h : result ∈ s.results pairOf picture) :
    result.1 ∈ s.images.map Image.id := by
  obtain ⟨i, hi, rfl⟩ := List.mem_map.mp h
  exact List.mem_map_of_mem (mem_unhashed.mp hi).1

/-- After a pass an image has the hashes that it had, or else those of its picture. -/
lemma imageHashes_withHashes (hs : s.Reachable) {i : Image} (hi : i ∈ s.images) :
    (s.withHashes (s.results pairOf picture)).imageHashes? i.id =
      (s.imageHashes? i.id).or ((picture i.location).map pairOf) := by
  have hfound : ∀ result ∈ s.results pairOf picture, result.1 ∈ s.images.map Image.id :=
    fun _ h => mem_images_of_mem_results h
  have ht := (hs.withHashes hfound).consistent
  refine Option.ext fun pair => ?_
  rw [imageHashes_eq_some ht, mem_withHashes hs.consistent (nodup_results hs.consistent pairOf picture)]
  simp only [mem_results hs.consistent hi, ← imageHashes_eq_some hs.consistent]
  cases s.imageHashes? i.id with
  | none => simp [eq_comm]
  | some stored => simp

/-- A pass leaves the images without hashes whose pictures cannot be read. -/
lemma unhashed_withHashes (hs : s.Reachable) :
    (s.withHashes (s.results pairOf picture)).unhashed = s.unhashed.filter fun i => (picture i.location).isNone := by
  rw [unhashed, unhashed, List.filter_filter]
  refine List.filter_congr fun i hi => ?_
  rw [imageHashes_withHashes hs hi, Bool.eq_iff_iff]
  cases s.imageHashes? i.id <;> cases picture i.location <;> simp

lemma numbered_unhashed (hs : s.Consistent) : (s.unhashed.map Image.id).Pairwise (· < ·) := by
  have hsorted := hs.imageIds.pairwise.sublist ((List.filter_sublist (p := fun i => s.imageHashes? i.id = none)).map _)
  exact hsorted.imp fun h => UInt64.lt_iff_toNat_lt.mpr h

/-- A pass accounts for every image without hashes. It stores the hashes of those whose pictures can be read, and the
others are what is left, in the order of their ids. No other hashes and no other table are touched, and the order in
which the pictures are read makes no difference. A second pass finds nothing to store and fails for the same images. -/
theorem hashing_accounts_for_images (hs : s.Reachable) (pairOf : Picture → HashPair)
    (picture : String → Option Picture) :
    ∃ t report, (Database.ready s).hashMissingBy pairOf picture = .ok (.ready t, report) ∧ t.Reachable ∧
      report.hashed + report.failed = s.unhashed.length ∧
      (∀ i ∈ s.unhashed, t.imageHashes? i.id = (picture i.location).map pairOf) ∧
      (∀ image pair, s.imageHashes? image = some pair → t.imageHashes? image = some pair) ∧
      t.imagesWithoutHashes =
        (s.unhashed.filter fun i => (picture i.location).isNone).map (fun i => (i.id, i.location)) ∧
      (t.imagesWithoutHashes.map Prod.fst).Pairwise (· < ·) ∧ t = { s with hashes := t.hashes } ∧
      (∀ found, found.Perm (s.results pairOf picture) →
        (Database.ready s).storeHashes ⟨0, 0⟩ found = .ok (.ready t, report)) ∧
      (Database.ready t).hashMissingBy pairOf picture = .ok (.ready t, ⟨0, report.failed⟩) := by
  have hfound : ∀ result ∈ s.results pairOf picture, result.1 ∈ s.images.map Image.id :=
    fun result h => mem_images_of_mem_results h
  have ht := hs.withHashes hfound
  have hleft : (s.withHashes (s.results pairOf picture)).unhashed =
      s.unhashed.filter fun i => (picture i.location).isNone := unhashed_withHashes hs
  have hpass := (hashMissing_ready s pairOf picture).trans (storeHashes_ready hfound ⟨0, 0⟩)
  refine ⟨_, _, hpass, ht, ?_, fun i hi => ?_, fun image pair hpair => ?_, ?_, ?_, rfl, fun found hperm => ?_, ?_⟩
  · rw [Nat.zero_add, Nat.zero_add, length_readHashes_add_failures, results, List.length_map]
  · obtain ⟨hi, hnone⟩ := mem_unhashed.mp hi
    rw [imageHashes_withHashes hs hi, hnone, Option.none_or]
  · obtain ⟨i, hi, rfl⟩ := List.mem_map.mp (hs.consistent.hashedImage _ ((imageHashes_eq_some hs.consistent).mp hpair))
    rw [imageHashes_withHashes hs hi, hpair, Option.some_or]
  · rw [imagesWithoutHashes_eq, hleft]
  · rw [imagesWithoutHashes_eq, List.map_map]
    exact numbered_unhashed ht.consistent
  · have hcount : (readHashes found).length = (readHashes (s.results pairOf picture)).length :=
      (hperm.filterMap _).length_eq
    rw [storeHashes_ready fun result h => hfound result (hperm.mem_iff.mp h), hcount, failures, hperm.countP_eq,
      withHashes_eq_of_perm hs.consistent (nodup_results hs.consistent pairOf picture) hperm]
    rfl
  · have hnothing : ∀ result ∈ (s.withHashes (s.results pairOf picture)).results pairOf picture, result.2 = none := by
      intro result h
      rw [results, hleft] at h
      obtain ⟨i, hi, rfl⟩ := List.mem_map.mp h
      rw [Option.isNone_iff_eq_none.mp (List.mem_filter.mp hi).2, Option.map_none]
    have hread := readHashes_eq_nil hnothing
    rw [hashMissing_ready, storeHashes_ready fun result h => mem_images_of_mem_results h, hread, withHashes, hread,
      failures_results, hleft, List.filter_filter, failures_results]
    simp only [Bool.and_self]
    rfl

/-- Four images. The first one has hashes already, and the next two lie at one place. -/
def gallery : Store :=
  empty.run [.createImage "dawn" "/dawn.png" 1, .createImage "dusk" "/dusk.png" 1, .createImage "dusk" "/dusk.png" 2,
    .createImage "noon" "/noon.png" 1, .setImageHashes 1 ⟨7, 9⟩]

/-- All pictures but one are gone. -/
def onlyDusk (location : String) : Option Picture :=
  if location = "/dusk.png" then some ⟨1, 1, #[Color.black]⟩ else none

/-- A picture of one color has no gradients. -/
def flatPair (_ : Picture) : HashPair := ⟨0, 0⟩

theorem gallery_accounted :
    ∃ t report, (Database.ready gallery).hashMissingBy flatPair onlyDusk = .ok (.ready t, report) ∧
      report.hashed + report.failed = 3 ∧ t.imageHashes? 1 = some ⟨7, 9⟩ ∧ t.imageHashes? 3 = some ⟨0, 0⟩ ∧
      t.imagesWithoutHashes = [(4, "/noon.png")] := by
  obtain ⟨t, report, hpass, _, hcount, hread, hkept, hleft, _⟩ :=
    @hashing_accounts_for_images gallery (Reachable.empty.run _) flatPair onlyDusk
  refine ⟨t, report, hpass, hcount.trans (by decide +kernel), hkept 1 ⟨7, 9⟩ (by decide +kernel), ?_,
    hleft.trans (by decide +kernel)⟩
  exact hread ⟨3, "dusk", "/dusk.png", 2, "unrated", 0, 0, 0⟩ (by decide +kernel)

end Store

namespace CommandLine

variable {α β : Type} {w w' : Workspace} {pairOf : Picture → HashPair}

/-- A step that succeeds is followed by the rest of the run. -/
lemma run_bind_of_ok {x : Step (StateM Workspace) α} {a : α} (h : x.run w = (.ok a, w'))
    (f : α → Step (StateM Workspace) β) : (x >>= f).run w = (f a).run w' := by
  rw [Workspace.run_bind, h]

/-- Pictures are read one after the other, and the files stay as they are. -/
lemma readPictures_workspace (pairOf : Picture → HashPair) (folder : String) (pending : List (UInt64 × String))
    (w : Workspace) : (pending.mapM (fun (image, location) => do
        let picture ← Workspace.disk.readPicture (Path.join folder location)
        pure (image, picture.map pairOf)) : Step (StateM Workspace) _).run w =
      (.ok (pending.map fun (image, location) =>
        (image, (w.readPicture (Path.join folder location)).map pairOf)), w) := by
  induction pending with
  | nil => rfl
  | cons entry rest ih =>
    obtain ⟨image, location⟩ := entry
    have hentry : ((do
        let picture ← Workspace.disk.readPicture (Path.join folder location)
        pure (image, picture.map pairOf)) : Step (StateM Workspace) (UInt64 × Option HashPair)).run w =
        (.ok (image, (w.readPicture (Path.join folder location)).map pairOf), w) := rfl
    rw [List.mapM_cons, List.map_cons, run_bind_of_ok hentry, run_bind_of_ok ih]
    rfl

/-- The command is a pass over the pictures in the folder that the configuration names. It writes the catalog if
there is something new in it. -/
theorem hash_workspace {config : Config} {opened : Opened} {hashed : Database} {report : HashReport}
    (h : (opened.database.hashMissingBy pairOf fun location => w.readPicture (Path.join config.imageFolder location)) =
      .ok (hashed, report)) :
    (hash Workspace.disk pairOf config opened).run w =
      (do
        if report.hashed ≠ 0 then opened.write Workspace.disk hashed
        return lines ["Hashed " ++ toString report.hashed ++ " images (" ++ toString report.failed ++ " failed)"] :
        Step (StateM Workspace) String).run w := by
  obtain ⟨pending, hpending, hstored⟩ := Inquiry.bind_eq_ok.mp h
  have hasked : (ofExcept (opened.database.imagesWithoutHashes.mapError fun e => .search (.store e)) :
      Step (StateM Workspace) (List (UInt64 × String))).run w = (.ok pending, w) := by
    rw [hpending]
    rfl
  rw [hash, run_bind_of_ok hasked, run_bind_of_ok (readPictures_workspace pairOf config.imageFolder pending w), hstored]
  rfl

end CommandLine
end TagSearch
