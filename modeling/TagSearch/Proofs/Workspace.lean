import Mathlib.Data.List.Induction
import Mathlib.Tactic.Lemma
import Mathlib.Tactic.SplitIfs
import TagSearch.Source
import TagSearch.Workspace

/-! What a program leaves on a disk. Folders that are made around a file change no file, and a file that was written is
read back. -/
namespace TagSearch.Workspace

variable {w w' w'' : Workspace} {names other : List Name} {path : List UInt8} {entry : Entry} {content : String}

/-- No file is changed, made or lost, and no folder is lost. -/
structure KeepsFiles (w w' : Workspace) : Prop where
  current : w'.current = w.current
  file : ∀ names entry, entry ≠ .folder → (w'.entry? names = some entry ↔ w.entry? names = some entry)
  folder : ∀ names, w.entry? names = some .folder → w'.entry? names = some .folder

lemma KeepsFiles.refl (w : Workspace) : w.KeepsFiles w := ⟨rfl, fun _ _ _ => Iff.rfl, fun _ => id⟩

lemma KeepsFiles.trans (h : w.KeepsFiles w') (h' : w'.KeepsFiles w'') : w.KeepsFiles w'' where
  current := h'.current.trans h.current
  file names entry hentry := (h'.file names entry hentry).trans (h.file names entry hentry)
  folder names hfolder := h'.folder names (h.folder names hfolder)

lemma entry?_set (hnames : names ≠ []) (entry : Entry) (other : List Name) :
    entry? (w.set names entry) other = if other = names then some entry else w.entry? other := by
  by_cases hother : other = []
  · rw [hother, if_neg (Ne.symm hnames)]
    rfl
  · have hempty : ¬ other.isEmpty = true := by simpa using hother
    unfold entry?
    rw [if_neg hempty, if_neg hempty, set, List.find?_cons]
    by_cases heq : names = other
    · rw [if_pos heq.symm, decide_eq_true heq]
      rfl
    · have hkept : (fun e : List Name × Entry => decide (decide (e.1 ≠ names) = true ∧ decide (e.1 = other) = true)) =
          fun e => decide (e.1 = other) := by
        funext e
        by_cases he : e.1 = other
        · simp [he, Ne.symm heq]
        · simp [he]
      rw [if_neg (Ne.symm heq), decide_eq_false heq, remove, List.find?_filter]
      dsimp only
      rw [hkept]

/-- The way to some names leads there still if there are folders where there were. -/
lemma walk_of_folders {folder steps : List Name}
    (hfolders : ∀ names, w.entry? names = some .folder → w'.entry? names = some .folder)
    (h : w.walk folder steps = .ok names) : w'.walk folder steps = .ok names := by
  induction steps generalizing folder with
  | nil => exact h
  | cons name rest ih =>
    rw [walk] at h ⊢
    split_ifs at h ⊢ with habove hhere hlast hlong
    · exact ih h
    · exact ih h
    · exact h
    · split at h
      · rename_i hfolder
        rw [hfolders _ hfolder]
        exact ih h
      · cases h
      · cases h

lemma resolve_of_folders (hcurrent : w'.current = w.current)
    (hfolders : ∀ names, w.entry? names = some .folder → w'.entry? names = some .folder)
    (h : w.resolve path = .ok names) : w'.resolve path = .ok names := by
  rw [resolve] at h ⊢
  split_ifs at h ⊢
  rw [origin] at h ⊢
  rw [hcurrent]
  exact walk_of_folders hfolders h

lemma lookUp_eq_ok {found : Option Entry} :
    w.lookUp names = .ok found ↔
      (names.getLast?.any fun name => nameLimit < name.length) = false ∧ w.entry? names = found := by
  rw [lookUp]
  split_ifs with hlong
  · simp [hlong]
  · simp [hlong]

lemma get_eq_ok :
    w.get path = .ok entry ↔
      ∃ names, w.resolve path = .ok names ∧ w.lookUp names = .ok (some entry) ∧
        (entry ≠ .folder → endsInSlash path = false) := by
  simp only [get, Inquiry.bind_eq_ok]
  refine exists_congr fun names => and_congr_right fun _ => ?_
  constructor
  · rintro ⟨found, hlook, h⟩
    split at h
    · cases h
    · cases h
      exact ⟨hlook, fun hne => absurd rfl hne⟩
    · split_ifs at h with hslash
      cases h
      exact ⟨hlook, fun _ => Bool.eq_false_iff.mpr hslash⟩
  · rintro ⟨hlook, hslash⟩
    refine ⟨some entry, hlook, ?_⟩
    cases entry with
    | folder => rfl
    | text | picture | catalog | bytes => exact if_neg (Bool.eq_false_iff.mp (hslash nofun))

/-- What a path leads to stays where folders are made and no file is changed. -/
lemma KeepsFiles.get (h : w.KeepsFiles w') (hget : w.get path = .ok entry) : w'.get path = .ok entry := by
  obtain ⟨names, hresolve, hlook, hslash⟩ := get_eq_ok.mp hget
  obtain ⟨hlength, hentry⟩ := lookUp_eq_ok.mp hlook
  refine get_eq_ok.mpr ⟨names, resolve_of_folders h.current h.folder hresolve, lookUp_eq_ok.mpr ⟨hlength, ?_⟩, hslash⟩
  by_cases hfolder : entry = .folder
  · rw [hfolder] at hentry ⊢
    exact h.folder names hentry
  · exact (h.file names entry hfolder).mpr hentry

lemma readText_eq_ok : w.readText path = .ok content ↔ w.get path = .ok (.text content) := by
  rw [readText]
  split
  · rename_i heq
    simp [heq]
  all_goals
    rename_i heq
    simp_all

lemma KeepsFiles.of_makeFolder (h : w.makeFolder path = .ok w') : w.KeepsFiles w' := by
  obtain ⟨names, hresolve, h⟩ := Inquiry.bind_eq_ok.mp h
  obtain ⟨found, hlook, h⟩ := Inquiry.bind_eq_ok.mp h
  cases found with
  | some _ => cases h
  | none =>
    cases h
    obtain ⟨_, hnone⟩ := lookUp_eq_ok.mp hlook
    have hnames : names ≠ [] := by
      rintro rfl
      cases hnone
    refine ⟨rfl, fun other entry hentry => ?_, fun other hfolder => ?_⟩
    · rw [entry?_set hnames]
      split_ifs with hother
      · rw [hother, hnone]
        exact iff_of_false (fun h => hentry (Option.some.inj h).symm) nofun
      · rfl
    · rw [entry?_set hnames]
      split_ifs
      · rfl
      · exact hfolder

lemma write_eq_ok :
    w.write path entry = .ok w' ↔
      ∃ names, w.resolve path = .ok names ∧ endsInSlash path = false ∧
        (∃ found, w.lookUp names = .ok found ∧ found ≠ some .folder) ∧ w' = w.set names entry := by
  rw [write, Inquiry.bind_eq_ok]
  refine exists_congr fun names => and_congr_right fun _ => ?_
  split_ifs with hslash
  · simp [hslash]
  · rw [Inquiry.bind_eq_ok, and_iff_right (Bool.eq_false_iff.mpr hslash)]
    constructor
    · rintro ⟨found, hlook, h⟩
      split at h
      · cases h
      · rename_i hfolder
        cases h
        exact ⟨⟨found, hlook, hfolder⟩, rfl⟩
    · rintro ⟨⟨found, hlook, hfolder⟩, rfl⟩
      refine ⟨found, hlook, ?_⟩
      split
      · exact absurd rfl hfolder
      · rfl

/-- Whether a file can be written does not depend on its content. -/
lemma exists_write (h : w.write path entry = .ok w') (content : Entry) :
    ∃ written, w.write path content = .ok written := by
  obtain ⟨names, hresolve, hslash, hlook, _⟩ := write_eq_ok.mp h
  exact ⟨_, write_eq_ok.mpr ⟨names, hresolve, hslash, hlook, rfl⟩⟩

/-- A text that is written is read back. -/
lemma readText_of_write (h : w.write path (.text content) = .ok w') : w'.readText path = .ok content := by
  obtain ⟨names, hresolve, hslash, ⟨found, hlook, hfolder⟩, rfl⟩ := write_eq_ok.mp h
  obtain ⟨hlength, hentry⟩ := lookUp_eq_ok.mp hlook
  have hnames : names ≠ [] := by
    rintro rfl
    exact hfolder hentry.symm
  -- the file is no folder, so it does not stand on its own way
  have hfolders : ∀ other, w.entry? other = some .folder →
      entry? (w.set names (.text content)) other = some .folder := by
    intro other hother
    rw [entry?_set hnames]
    split_ifs with heq
    · exact absurd (hentry.symm.trans (heq ▸ hother)) hfolder
    · exact hother
  have hsame : (w.set names (.text content)).resolve path = .ok names :=
    resolve_of_folders (w := w) rfl hfolders hresolve
  refine readText_eq_ok.mpr (get_eq_ok.mpr ⟨names, hsame, lookUp_eq_ok.mpr ⟨hlength, ?_⟩, fun _ => hslash⟩)
  rw [entry?_set hnames, if_pos rfl]

/-- Every entry stands in a folder. -/
def IsTree (w : Workspace) : Prop := ∀ e ∈ w.entries, (w.entry? e.1.dropLast).any Entry.isFolder = true

instance (w : Workspace) : Decidable w.IsTree :=
  inferInstanceAs (Decidable (∀ e ∈ w.entries, (w.entry? e.1.dropLast).any Entry.isFolder = true))

lemma eq_folder {found : Option Entry} (h : found.any Entry.isFolder = true) : found = some .folder := by
  obtain ⟨entry, rfl, hfolder⟩ := (Option.any_eq_true _ _).mp h
  cases entry <;> first | rfl | cases hfolder

lemma IsTree.dropLast (h : w.IsTree) (hentry : w.entry? names = some entry) :
    w.entry? names.dropLast = some .folder := by
  unfold entry? at hentry
  split_ifs at hentry with hempty
  · rw [List.isEmpty_iff.mp hempty]
    rfl
  · obtain ⟨e, hfind, _⟩ := Option.map_eq_some_iff.mp hentry
    have hname : e.1 = names := by simpa using List.find?_some hfind
    exact eq_folder (hname ▸ h e (List.mem_of_find?_eq_some hfind))

/-- What leads to an entry are folders. -/
lemma IsTree.front (h : w.IsTree) {front rest : List Name} (hentry : w.entry? (front ++ rest) = some entry)
    (hrest : rest ≠ []) : w.entry? front = some .folder := by
  induction rest using List.reverseRecOn generalizing entry with
  | nil => exact absurd rfl hrest
  | append_singleton rest name ih =>
    have hfolder := h.dropLast hentry
    rw [← List.append_assoc, List.dropLast_concat] at hfolder
    by_cases hlast : rest = []
    · rwa [hlast, List.append_nil] at hfolder
    · exact ih hfolder hlast

/-- Without a step upwards, a way leads on from where it starts. -/
lemma prefix_of_walk {folder steps : List Name} (habove : above ∉ steps) (h : w.walk folder steps = .ok names) :
    folder <+: names := by
  induction steps generalizing folder with
  | nil =>
    cases h
    exact List.prefix_rfl
  | cons name rest ih =>
    rw [List.mem_cons, not_or] at habove
    rw [walk, if_neg (Ne.symm habove.1)] at h
    split_ifs at h
    · exact ih habove.2 h
    · cases h
      exact List.prefix_append ..
    · split at h
      · exact (List.prefix_append ..).trans (ih habove.2 h)
      · cases h
      · cases h

/-- Without a step upwards, a way needs no other folders than those around its end. -/
lemma walk_of_fronts {folder steps : List Name} (habove : above ∉ steps)
    (hfronts : ∀ front, front <+: names → w'.entry? front = some .folder → w.entry? front = some .folder)
    (h : w'.walk folder steps = .ok names) : w.walk folder steps = .ok names := by
  induction steps generalizing folder with
  | nil => exact h
  | cons name rest ih =>
    rw [List.mem_cons, not_or] at habove
    rw [walk, if_neg (Ne.symm habove.1)] at h ⊢
    split_ifs at h ⊢ with hhere hlast hlong
    · exact ih habove.2 h
    · exact h
    · split at h
      · rename_i hfolder
        rw [hfronts _ (prefix_of_walk habove.2 h) hfolder]
        exact ih habove.2 h
      · cases h
      · cases h

/-- Where every entry stands in a folder, a path without a step upwards leads to a file exactly if it did so before. -/
lemma KeepsFiles.get_iff (h : w.KeepsFiles w') (htree : w.IsTree) (habove : above ∉ steps path)
    (hentry : entry ≠ .folder) : w'.get path = .ok entry ↔ w.get path = .ok entry := by
  refine ⟨fun hget => ?_, h.get⟩
  obtain ⟨names, hresolve, hlook, hslash⟩ := get_eq_ok.mp hget
  obtain ⟨hlength, hfile⟩ := lookUp_eq_ok.mp hlook
  have hbefore : w.entry? names = some entry := (h.file names entry hentry).mp hfile
  have hfronts : ∀ front, front <+: names → w'.entry? front = some .folder → w.entry? front = some .folder := by
    rintro front ⟨rest, rfl⟩ hfolder
    refine htree.front hbefore fun hrest => ?_
    rw [hrest, List.append_nil, hfolder] at hfile
    exact hentry (Option.some.inj hfile).symm
  refine get_eq_ok.mpr ⟨names, ?_, lookUp_eq_ok.mpr ⟨hlength, hbefore⟩, hslash⟩
  rw [resolve] at hresolve ⊢
  split_ifs at hresolve ⊢
  rw [origin] at hresolve ⊢
  rw [h.current] at hresolve
  exact walk_of_fronts habove hfronts hresolve

/-- A program that fails leaves the rest out. -/
lemma run_bind {ε α β : Type} (x : ExceptT ε (StateM Workspace) α) (f : α → ExceptT ε (StateM Workspace) β)
    (w : Workspace) :
    (x >>= f).run w =
      match x.run w with
      | (.ok a, w) => (f a).run w
      | (.error e, w) => (.error e, w) := by
  change (ExceptT.bindCont f (x.run w).1) (x.run w).2 = _
  rcases x.run w with ⟨e | a, w⟩ <;> rfl

/-- A program that keeps the files of every disk. -/
def Keeps {α : Type} (program : StateM Workspace α) : Prop := ∀ w : Workspace, w.KeepsFiles (program.run w).2

section Programs

variable {α β : Type} {program : StateM Workspace α} {next : α → StateM Workspace β}

lemma keeps_pure (a : α) : Keeps (pure a : StateM Workspace α) := fun w => .refl w

lemma Keeps.bind (h : Keeps program) (hnext : ∀ a, Keeps (next a)) : Keeps (program >>= next) :=
  fun w => (h w).trans (hnext _ _)

lemma keeps_isFolder (path : String) : Keeps (disk.isFolder path) := fun w => .refl w

lemma keeps_makeFolder (path : String) : Keeps (disk.makeFolder path) := by
  intro w
  change w.KeepsFiles (change (fun w => w.makeFolder (Text.bytes path)) w).2
  rw [Workspace.change]
  split
  · rename_i hmade
    exact .of_makeFolder hmade
  · exact .refl w

lemma keeps_ensureFolder (path : String) : Keeps (disk.ensureFolder path) := by
  refine (keeps_makeFolder path).bind fun made => ?_
  cases made with
  | ok _ => exact keeps_pure _
  | error e =>
    refine (keeps_isFolder path).bind fun there => ?_
    cases there <;> exact keeps_pure _

lemma keeps_makeAlong (paths : List String) : Keeps (disk.makeAlong paths) := by
  induction paths with
  | nil => exact keeps_pure _
  | cons path outer ih =>
    rw [Disk.makeAlong]
    split_ifs
    · exact keeps_pure _
    · refine (keeps_makeFolder path).bind fun made => ?_
      split
      · exact keeps_pure _
      · refine ih.bind fun made => ?_
        cases made with
        | ok _ => exact keeps_ensureFolder path
        | error e => exact keeps_pure _
      · refine (keeps_isFolder path).bind fun there => ?_
        cases there <;> exact keeps_pure _

/-- Folders around a file are made without a change to a file. -/
lemma keeps_makeFolders (path : String) : Keeps (disk.makeFolders path) := keeps_makeAlong _

/-- Make the folders around a file. -/
def makeAround (path : String) : StateM Workspace (Except DiskError Unit) :=
  match Path.parent? path with
  | some folder => disk.makeFolders folder
  | none => pure (.ok ())

lemma keeps_makeAround (path : String) : Keeps (makeAround path) := by
  rw [makeAround]
  split
  · exact keeps_makeFolders _
  · exact keeps_pure _

end Programs

/-- Whether a file can be written at a path once the folders around it are made. -/
def canHold (w : Workspace) (path : String) : Bool :=
  match (makeAround path).run w with
  | (.ok (), around) => (around.write (Text.bytes path) (.text "")).isOk
  | (.error _, _) => false

lemma canHold_eq_true {path : String} :
    w.canHold path = true ↔
      ∃ around written, (makeAround path).run w = (.ok (), around) ∧
        around.write (Text.bytes path) (.text "") = .ok written := by
  rw [canHold]
  rcases hmade : (makeAround path).run w with ⟨e | ⟨⟩, around⟩
  · exact ⟨nofun, fun ⟨_, _, h, _⟩ => nomatch h⟩
  · dsimp only
    constructor
    · intro h
      cases hwritten : around.write (Text.bytes path) (.text "") with
      | ok written => exact ⟨around, written, rfl, hwritten⟩
      | error e =>
        rw [hwritten] at h
        cases h
    · rintro ⟨_, written, h, hwritten⟩
      cases h
      rw [hwritten]
      rfl

end TagSearch.Workspace
