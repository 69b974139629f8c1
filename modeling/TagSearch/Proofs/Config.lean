import Mathlib.Tactic.Lemma
import Mathlib.Tactic.SplitIfs
import TagSearch.Config.File
import TagSearch.Proofs.Signed
import TagSearch.Proofs.Toml.Document
import TagSearch.Proofs.Workspace

/-! Configurations that are saved and loaded. A configuration is read back from its file as long as its numbers fit into
a document; where one does not fit, no file is touched. Names may be taken out of the file: the settings that are left
count, and the fallback's stand for the others. -/
namespace TagSearch.Config
open Toml

variable {c fallback : Config} {n : UInt64} {w : Workspace} {path text : String} {keep : List String → Bool}

/-- No number is larger than the largest signed one. -/
def Fits (c : Config) : Prop :=
  ∀ n ∈ [c.pageStride, c.countCacheSeconds, c.hashThreads], (n.toNat : Int) ≤ Int64.maxValue.toInt

instance (c : Config) : Decidable c.Fits :=
  List.decidableBAll (fun n : UInt64 => (n.toNat : Int) ≤ Int64.maxValue.toInt) _

/-- The document of all settings. -/
def document (c : Config) : Document where
  entries := [("db_path", .text c.databasePath), ("image_dir", .text c.imageFolder)]
  tables := [("search", [("page_stride", .integer c.pageStride.toInt64),
      ("count_cache_secs", .integer c.countCacheSeconds.toInt64)]),
    ("hashing", [("threads", .integer c.hashThreads.toInt64)])]

lemma lt_of_le_maxValue (h : (n.toNat : Int) ≤ Int64.maxValue.toInt) : n.toNat < 2 ^ 63 := by
  have hmax : Int64.maxValue.toInt = 2 ^ 63 - 1 := by decide
  omega

lemma scalar?_eq (n : UInt64) :
    scalar? n = if (n.toNat : Int) ≤ Int64.maxValue.toInt then some (.integer n.toInt64) else none := by
  have hmax : Int64.maxValue.toInt = 2 ^ 63 - 1 := by decide
  rw [scalar?, Nat.one_shiftLeft]
  exact if_congr (by omega) rfl rfl

/-- There is a document if all numbers fit. -/
lemma document?_eq (c : Config) : c.document? = if c.Fits then some c.document else none := by
  simp only [document?, scalar?_eq, Fits, List.forall_mem_cons]
  by_cases hstride : (c.pageStride.toNat : Int) ≤ Int64.maxValue.toInt
  · by_cases hseconds : (c.countCacheSeconds.toNat : Int) ≤ Int64.maxValue.toInt
    · by_cases hthreads : (c.hashThreads.toNat : Int) ≤ Int64.maxValue.toInt
      · simp [hstride, hseconds, hthreads, document]
      · simp [hthreads]
    · simp [hseconds]
  · simp [hstride]

lemma isProper_document (c : Config) : c.document.IsProper where
  bareEntries := by
    simp only [document, List.forall_mem_cons]
    exact ⟨by decide +kernel, by decide +kernel, nofun⟩
  bareTables := by
    simp only [document, List.forall_mem_cons]
    exact ⟨⟨by decide +kernel, by decide +kernel, by decide +kernel, nofun⟩,
      ⟨by decide +kernel, by decide +kernel, nofun⟩, nofun⟩
  distinct := by
    change ["db_path", "image_dir", "search", "hashing"].Nodup
    decide
  distinctInside := by
    simp only [document, List.forall_mem_cons]
    exact ⟨(by decide : ["page_stride", "count_cache_secs"].Nodup), (by decide : ["threads"].Nodup), nofun⟩

/-- Every part of the document of a configuration is read back from its text. -/
lemma read?_document (c : Config) (keep : List String → Bool) :
    Toml.read? (c.document.restrict keep).render = some (c.document.toEntries.restrict keep) := by
  rw [Document.read?_render (c.isProper_document.restrict), Document.toEntries_restrict]

/-- The settings whose names are kept, and the fallback's for the others. -/
def restrict (keep : List String → Bool) (c fallback : Config) : Config where
  databasePath := if keep ["db_path"] then c.databasePath else fallback.databasePath
  imageFolder := if keep ["image_dir"] then c.imageFolder else fallback.imageFolder
  pageStride := if keep ["search"] && keep ["search", "page_stride"] then c.pageStride else fallback.pageStride
  countCacheSeconds :=
    if keep ["search"] && keep ["search", "count_cache_secs"] then c.countCacheSeconds else fallback.countCacheSeconds
  hashThreads := if keep ["hashing"] && keep ["hashing", "threads"] then c.hashThreads else fallback.hashThreads

lemma text?_kept (kept : Bool) (s fallback : String) :
    text? (if kept then some (.text s) else none) fallback = some (if kept then s else fallback) := by
  cases kept <;> rfl

lemma number?_kept (h : (n.toNat : Int) ≤ Int64.maxValue.toInt) (kept : Bool) (fallback : UInt64) :
    number? (if kept then some (.integer n.toInt64) else none) fallback = some (if kept then n else fallback) := by
  cases kept with
  | false => rfl
  | true => exact if_pos (toInt64_nonneg (lt_of_le_maxValue h))

/-- A number counts if its section is kept and its name in the section. -/
lemma sectionNumber?_kept {inner : Entries} {name : String} (h : (n.toNat : Int) ≤ Int64.maxValue.toInt)
    (hinner : inner.get? name = some (.integer n.toInt64)) (origin : Origin) (section? : Bool) (inside : String → Bool)
    (place : Nat) (fallback : UInt64) :
    sectionNumber? (if section? then some (Value.keepInside inside (.table origin inner)) else none) place name
      fallback = some (if section? && inside name then n else fallback) := by
  cases section? with
  | false => rfl
  | true =>
    change number? (Entries.get? (inner.filter fun entry => inside entry.1) name) fallback = _
    rw [Entries.get?_filter, hinner]
    exact number?_kept h (inside name) fallback

/-- What is left of a document gives the settings that are left. -/
lemma ofEntries?_restrict (h : c.Fits) :
    ofEntries? fallback (c.document.toEntries.restrict keep) = some (c.restrict keep fallback) := by
  simp only [Fits, List.forall_mem_cons] at h
  obtain ⟨hstride, hseconds, hthreads, _⟩ := h
  have hpath : text? ((c.document.toEntries.restrict keep).get? "db_path") fallback.databasePath =
      some (c.restrict keep fallback).databasePath := by
    rw [Entries.get?_restrict]
    exact text?_kept _ _ _
  have hfolder : text? ((c.document.toEntries.restrict keep).get? "image_dir") fallback.imageFolder =
      some (c.restrict keep fallback).imageFolder := by
    rw [Entries.get?_restrict]
    exact text?_kept _ _ _
  have hstride : sectionNumber? ((c.document.toEntries.restrict keep).get? "search") 0 "page_stride"
      fallback.pageStride = some (c.restrict keep fallback).pageStride := by
    rw [Entries.get?_restrict]
    exact sectionNumber?_kept hstride rfl _ _ _ _ _
  have hseconds : sectionNumber? ((c.document.toEntries.restrict keep).get? "search") 1 "count_cache_secs"
      fallback.countCacheSeconds = some (c.restrict keep fallback).countCacheSeconds := by
    rw [Entries.get?_restrict]
    exact sectionNumber?_kept hseconds rfl _ _ _ _ _
  have hthreads : sectionNumber? ((c.document.toEntries.restrict keep).get? "hashing") 0 "threads"
      fallback.hashThreads = some (c.restrict keep fallback).hashThreads := by
    rw [Entries.get?_restrict]
    exact sectionNumber?_kept hthreads rfl _ _ _ _ _
  rw [ofEntries?, hpath, hfolder, hstride, hseconds, hthreads]
  rfl

lemma run_adapt {α : Type} (program : StateM Workspace (Except DiskError α)) (w : Workspace) :
    (ExceptT.adapt ConfigError.disk (ExceptT.mk program)).run w =
      ((program.run w).1.mapError .disk, (program.run w).2) := rfl

/-- The folders around the file come first, then the text, and the file last. -/
lemma save_eq (c : Config) (path : String) (w : Workspace) :
    (c.save Workspace.disk path).run w =
      (do
        ExceptT.adapt .disk (ExceptT.mk (Workspace.makeAround path))
        match c.render? with
        | some text => ExceptT.adapt .disk (ExceptT.mk (Workspace.disk.writeText path text))
        | none => throw .tooLarge : ExceptT ConfigError (StateM Workspace) Unit).run w := by
  unfold save Workspace.makeAround
  cases Path.parent? path <;> rfl

variable {around saved after : Workspace}

lemma run_save_of_unmade {e : DiskError} (h : (Workspace.makeAround path).run w = (.error e, around)) :
    (c.save Workspace.disk path).run w = (.error (.disk e), around) := by
  rw [save_eq, Workspace.run_bind, run_adapt, h]
  rfl

/-- A text is made only of numbers that fit. -/
lemma run_save_of_made (h : (Workspace.makeAround path).run w = (.ok (), around)) :
    (c.save Workspace.disk path).run w =
      if c.Fits then
        match around.write (Text.bytes path) (.text c.document.render) with
        | .ok written => (.ok (), written)
        | .error e => (.error (.disk e), around)
      else (.error .tooLarge, around) := by
  rw [save_eq, Workspace.run_bind, run_adapt, h]
  dsimp only [Except.mapError]
  rw [render?, document?_eq]
  split_ifs
  · refine (run_adapt (Workspace.disk.writeText path c.document.render) around).trans ?_
    change ((Workspace.change (fun w => w.write (Text.bytes path) (.text c.document.render)) around).1.mapError _,
      (Workspace.change (fun w => w.write (Text.bytes path) (.text c.document.render)) around).2) = _
    rw [Workspace.change]
    cases around.write (Text.bytes path) (.text c.document.render) <;> rfl
  · rfl

lemma save_eq_ok :
    (c.save Workspace.disk path).run w = (.ok (), saved) ↔
      c.Fits ∧ ∃ around, (Workspace.makeAround path).run w = (.ok (), around) ∧
        around.write (Text.bytes path) (.text c.document.render) = .ok saved := by
  rcases hmade : (Workspace.makeAround path).run w with ⟨e | ⟨⟩, around⟩
  · rw [run_save_of_unmade hmade]
    exact ⟨nofun, fun ⟨_, _, h, _⟩ => nomatch h⟩
  · rw [run_save_of_made hmade]
    split_ifs with hfits
    · constructor
      · intro h
        split at h
        · rename_i hwritten
          cases h
          exact ⟨hfits, around, rfl, hwritten⟩
        · cases h
      · rintro ⟨_, _, h, hwritten⟩
        cases h
        rw [hwritten]
    · exact ⟨nofun, fun h => absurd h.1 hfits⟩

/-- A configuration can be saved if its numbers fit and a file can be written. -/
lemma exists_save_iff :
    (∃ saved, (c.save Workspace.disk path).run w = (.ok (), saved)) ↔ c.Fits ∧ w.canHold path = true := by
  simp only [save_eq_ok, Workspace.canHold_eq_true]
  constructor
  · rintro ⟨saved, hfits, around, hmade, hwritten⟩
    obtain ⟨written, hempty⟩ := Workspace.exists_write hwritten (.text "")
    exact ⟨hfits, around, written, hmade, hempty⟩
  · rintro ⟨hfits, around, written, hmade, hempty⟩
    obtain ⟨saved, hwritten⟩ := Workspace.exists_write hempty (.text c.document.render)
    exact ⟨saved, hfits, around, hmade, hwritten⟩

lemma readText_of_save (h : (c.save Workspace.disk path).run w = (.ok (), saved)) :
    saved.readText (Text.bytes path) = .ok c.document.render := by
  obtain ⟨_, around, _, hwritten⟩ := save_eq_ok.mp h
  exact Workspace.readText_of_write hwritten

/-- A save that fails has made folders at most. -/
lemma keepsFiles_of_save {error : ConfigError}
    (h : (c.save Workspace.disk path).run w = (.error error, after)) : w.KeepsFiles after := by
  have hkeeps := Workspace.keeps_makeAround path w
  rcases hmade : (Workspace.makeAround path).run w with ⟨e | ⟨⟩, around⟩
  · rw [hmade] at hkeeps
    rw [run_save_of_unmade hmade] at h
    cases h
    exact hkeeps
  · rw [hmade] at hkeeps
    rw [run_save_of_made hmade] at h
    split_ifs at h
    · split at h
      · cases h
      · cases h
        exact hkeeps
    · cases h
      exact hkeeps

lemma exists_save_error (h : ¬ c.Fits) :
    ∃ error after, (c.save Workspace.disk path).run w = (.error error, after) := by
  rcases hrun : (c.save Workspace.disk path).run w with ⟨error | _, after⟩
  · exact ⟨error, after, rfl⟩
  · exact absurd (save_eq_ok.mp hrun).1 h

lemma run_load (fallback : Config) (path : String) (w : Workspace) :
    (load Workspace.disk fallback path).run w =
      if w.holds (Text.bytes path) then
        match w.readText (Text.bytes path) with
        | .ok text =>
          match read? fallback text with
          | some c => (.ok c, w)
          | none => (.error .malformed, w)
        | .error e => (.error (.disk e), w)
      else
        match (fallback.save Workspace.disk path).run w with
        | (.ok (), written) => (.ok fallback, written)
        | (.error e, after) => (.error e, after) := by
  unfold load
  refine (Workspace.run_bind _ _ w).trans ?_
  change (if w.holds (Text.bytes path) = true then _ else _ : ExceptT ConfigError (StateM Workspace) Config).run w = _
  split_ifs
  · refine (Workspace.run_bind _ _ w).trans ?_
    have hread : (Workspace.disk.readText path).run w = (w.readText (Text.bytes path), w) := rfl
    rw [run_adapt, hread]
    cases w.readText (Text.bytes path) with
    | error e => rfl
    | ok text =>
      dsimp only [Except.mapError]
      cases read? fallback text <;> rfl
  · refine (Workspace.run_bind _ _ w).trans ?_
    rcases (fallback.save Workspace.disk path).run w with ⟨e | _, after⟩ <;> rfl

/-- A text that tells a configuration is loaded as it, and the disk stays as it is. -/
lemma load_of_readText (hread : w.readText (Text.bytes path) = .ok text) (hc : read? fallback text = some c) :
    (load Workspace.disk fallback path).run w = (.ok c, w) := by
  have hholds : w.holds (Text.bytes path) = true := by
    rw [Workspace.holds, Workspace.readText_eq_ok.mp hread]
  rw [run_load, if_pos hholds, hread]
  dsimp only
  rw [hc]

/-- What is left of the names of a saved configuration is loaded. -/
lemma load_of_restrict (hfits : c.Fits) (hread : w.readText (Text.bytes path) = .ok text)
    (htable : Toml.read? text = some (c.document.toEntries.restrict keep)) (fallback : Config) :
    (load Workspace.disk fallback path).run w = (.ok (c.restrict keep fallback), w) := by
  refine load_of_readText hread ?_
  rw [read?, htable]
  exact ofEntries?_restrict hfits

/-- All settings of a saved configuration are loaded, as long as the file is what it was. -/
lemma load_of_document (hfits : c.Fits) (hread : w.readText (Text.bytes path) = .ok c.document.render)
    (fallback : Config) : (load Workspace.disk fallback path).run w = (.ok c, w) := by
  have htable : Toml.read? c.document.render = some (c.document.toEntries.restrict fun _ => true) := by
    rw [Document.read?_render c.isProper_document]
    rfl
  exact load_of_restrict hfits hread htable fallback

lemma fits_default (e : Environment) : (default e).Fits := by
  simp only [Fits, default, List.forall_mem_cons]
  exact ⟨by decide, by decide, by decide, nofun⟩

/-- A text from which all settings are loaded, on any disk and whatever the fallback is. Where names are taken out of
its table, the settings that are left are loaded, and the fallback's for the others. -/
structure Tells (text : String) (c : Config) : Prop where
  whole : ∀ w path, w.readText (Text.bytes path) = .ok text →
    ∀ fallback, (load Workspace.disk fallback path).run w = (.ok c, w)
  parts : ∃ table, Toml.read? text = some table ∧ ∀ keep,
    (∃ part, Toml.read? part = some (table.restrict keep)) ∧
      ∀ part, Toml.read? part = some (table.restrict keep) → ∀ w path, w.readText (Text.bytes path) = .ok part →
        ∀ fallback, (load Workspace.disk fallback path).run w = (.ok (c.restrict keep fallback), w)

lemma tells_document (hfits : c.Fits) : Tells c.document.render c where
  whole w path hread fallback := load_of_document hfits hread fallback
  parts := by
    refine ⟨c.document.toEntries, Document.read?_render c.isProper_document, fun keep => ⟨?_, ?_⟩⟩
    · exact ⟨_, c.read?_document keep⟩
    · exact fun part hpart w path hread fallback => load_of_restrict hfits hread hpart fallback

/-- A configuration survives saving. It can be saved if its numbers fit into a document and the disk takes a file at the
path, and only then. What is saved tells all of it. A number that does not fit makes saving fail before a file is
touched. Loading from a path that leads nowhere saves the settings of the environment there. -/
theorem survives_saving (w : Workspace) (path : String) (c : Config) :
    ((∃ saved, (c.save Workspace.disk path).run w = (.ok (), saved)) ↔ c.Fits ∧ w.canHold path = true) ∧
    (∀ saved, (c.save Workspace.disk path).run w = (.ok (), saved) →
      (∀ fallback, (load Workspace.disk fallback path).run saved = (.ok c, saved)) ∧
        ∃ text, saved.readText (Text.bytes path) = .ok text ∧ Tells text c) ∧
    (¬ c.Fits → ∃ error after, (c.save Workspace.disk path).run w = (.error error, after) ∧ w.KeepsFiles after ∧
      (w.IsTree → Workspace.above ∉ Workspace.steps (Text.bytes path) → ∀ entry, entry ≠ .folder →
        (after.get (Text.bytes path) = .ok entry ↔ w.get (Text.bytes path) = .ok entry))) ∧
    ∀ e, w.holds (Text.bytes path) = false → w.canHold path = true →
      ∃ written, (load Workspace.disk (default e) path).run w = (.ok (default e), written) ∧
        ∃ text, written.readText (Text.bytes path) = .ok text ∧ Tells text (default e) := by
  refine ⟨exists_save_iff, fun saved hsave => ?_, fun hfits => ?_, fun e hmissing hholds => ?_⟩
  · have htells := tells_document (save_eq_ok.mp hsave).1
    have hread := readText_of_save hsave
    exact ⟨htells.whole saved path hread, _, hread, htells⟩
  · obtain ⟨error, after, hsave⟩ := @exists_save_error c w path hfits
    have hkeeps := keepsFiles_of_save hsave
    exact ⟨error, after, hsave, hkeeps, fun htree habove entry hentry => hkeeps.get_iff htree habove hentry⟩
  · obtain ⟨written, hsave⟩ := exists_save_iff.mpr ⟨fits_default e, hholds⟩
    refine ⟨written, ?_, _, readText_of_save hsave, tells_document (fits_default e)⟩
    rw [run_load, if_neg (Bool.eq_false_iff.mp hmissing), hsave]

/-- A disk with one folder. -/
def homeDisk : Workspace where
  current := []
  entries := [([Text.bytes "home"], .folder)]

/-- A configuration whose paths need quotes of every kind. -/
def quotedConfig : Config where
  databasePath := "/home/it's \"here\"\\\n.db"
  imageFolder := "C:\\images"
  pageStride := 50
  countCacheSeconds := 9223372036854775807
  hashThreads := 0

/-- A configuration with a number that no document holds. -/
def endlessConfig : Config := { quotedConfig with countCacheSeconds := 9223372036854775808 }

def bareEnvironment : Environment := ⟨none, none, none, none, none⟩

theorem quoted_config_survives :
    (∃ saved, (quotedConfig.save Workspace.disk "/home/nested/config.toml").run homeDisk = (.ok (), saved) ∧
      (∀ fallback, (load Workspace.disk fallback "/home/nested/config.toml").run saved = (.ok quotedConfig, saved)) ∧
      -- without its section, the settings of searching are the fallback's
      ∃ part, ∀ w path, w.readText (Text.bytes path) = .ok part →
        ∀ fallback, (load Workspace.disk fallback path).run w =
          (.ok { quotedConfig with
            pageStride := fallback.pageStride, countCacheSeconds := fallback.countCacheSeconds }, w)) ∧
    (∃ error after,
      (endlessConfig.save Workspace.disk "/home/nested/config.toml").run homeDisk = (.error error, after) ∧
      homeDisk.KeepsFiles after ∧ ∀ entry, entry ≠ .folder →
        (after.get (Text.bytes "/home/nested/config.toml") = .ok entry ↔
          homeDisk.get (Text.bytes "/home/nested/config.toml") = .ok entry)) ∧
    ∃ written text,
      (load Workspace.disk (default bareEnvironment) "/home/nested/config.toml").run homeDisk =
        (.ok (default bareEnvironment), written) ∧
      written.readText (Text.bytes "/home/nested/config.toml") = .ok text ∧ Tells text (default bareEnvironment) := by
  have hholds : homeDisk.canHold "/home/nested/config.toml" = true := by decide +kernel
  obtain ⟨hsaved, hloaded, _, hmissing⟩ := survives_saving homeDisk "/home/nested/config.toml" quotedConfig
  obtain ⟨_, _, hendless, _⟩ := survives_saving homeDisk "/home/nested/config.toml" endlessConfig
  refine ⟨?_, ?_, ?_⟩
  · obtain ⟨saved, hsave⟩ := hsaved.mpr ⟨by decide, hholds⟩
    obtain ⟨hload, text, _, htells⟩ := hloaded saved hsave
    obtain ⟨table, _, hparts⟩ := htells.parts
    obtain ⟨⟨part, hpart⟩, hload'⟩ := hparts fun names => names ≠ ["search"]
    exact ⟨saved, hsave, hload, part, hload' part hpart⟩
  · obtain ⟨error, after, hsave, hkeeps, hget⟩ := hendless (by decide)
    exact ⟨error, after, hsave, hkeeps, hget (by decide +kernel) (by decide +kernel)⟩
  · obtain ⟨written, hload, text, hread, htells⟩ := hmissing bareEnvironment (by decide +kernel) hholds
    exact ⟨written, text, hload, hread, htells⟩

end TagSearch.Config
