import TagSearch.Proofs.Store.History
import TagSearch.Store.Answer

/-! Tables in which a written row replaces the row of its key. Whatever is done to a catalog, such a table holds for
each key the row that was written last, and nothing else. -/
namespace TagSearch

/-- A table to which changes write single rows. -/
structure WrittenTable (ρ κ : Type) [DecidableEq κ] where
  rows : Store → List ρ
  /-- The row that a change writes. -/
  written? : Change → Option ρ
  key : ρ → κ
  /-- The rows stand in the order of these numbers. -/
  place : ρ → ℕ
  place_eq_iff : ∀ a b, place a = place b ↔ key a = key b
  rows_empty : rows .empty = []
  ordered : ∀ s : Store, s.Consistent → Ordered.IsOrdered place (rows s)
  rows_apply : ∀ (s t : Store) (change : Change) (created : Option UInt64), s.apply change = .ok (t, created) →
    rows t = (written? change).elim (rows s) fun row => Ordered.put place row (rows s)

namespace WrittenTable

variable {ρ κ : Type} [DecidableEq κ] {table : WrittenTable ρ κ} {s t : Store} {past history : List Event}
  {event : Event} {change : Change} {created : Option UInt64} {row : ρ} {k : κ}

/-- The row that an event writes. -/
def rowOf? (table : WrittenTable ρ κ) (event : Event) : Option ρ :=
  match event.operation, event.answer with
  | .change change, .ok _ => table.written? change
  | _, _ => none

/-- The row of a key that a history wrote last. -/
def last? (table : WrittenTable ρ κ) (history : List Event) (k : κ) : Option ρ :=
  ((history.filterMap table.rowOf?).filter fun row => table.key row = k).getLast?

lemma key_of_last? (h : table.last? history k = some row) : table.key row = k := by
  have hmem := List.mem_of_getLast? h
  exact of_decide_eq_true (List.mem_filter.mp hmem).2

/-- An event that writes no row leaves the last rows. -/
lemma last?_concat_of_none (h : table.rowOf? event = none) :
    table.last? (past ++ [event]) k = table.last? past k := by
  rw [last?, List.filterMap_append, List.filterMap_cons_none h, List.filterMap_nil, List.append_nil]
  rfl

/-- A written row is the last one of its key, and the other keys keep theirs. -/
lemma last?_concat_of_some (h : table.rowOf? event = some row) :
    table.last? (past ++ [event]) k = if table.key row = k then some row else table.last? past k := by
  rw [last?, List.filterMap_append, List.filterMap_cons_some h, List.filterMap_nil, List.filter_append,
    List.filter_singleton]
  by_cases hkey : table.key row = k
  · rw [if_pos hkey, decide_eq_true hkey, cond_true, List.getLast?_concat]
  · rw [if_neg hkey, decide_eq_false hkey, cond_false, List.append_nil]
    rfl

/-- The table holds the rows that a history wrote last. -/
def Remembers (table : WrittenTable ρ κ) (s : Store) (history : List Event) : Prop :=
  ∀ row, row ∈ table.rows s ↔ table.last? history (table.key row) = some row

lemma remembers_empty : table.Remembers .empty [] := by
  intro row
  rw [table.rows_empty]
  exact ⟨fun h => absurd h List.not_mem_nil, fun h => nomatch h⟩

lemma Remembers.concat_of_none (hpast : table.Remembers s past) (h : table.rowOf? event = none) :
    table.Remembers s (past ++ [event]) := by
  intro row
  rw [last?_concat_of_none h]
  exact hpast row

/-- A row that is put replaces the one of its key. -/
lemma mem_put_row (hs : s.Consistent) (row other : ρ) :
    other ∈ Ordered.put table.place row (table.rows s) ↔
      if table.key row = table.key other then row = other else other ∈ table.rows s := by
  rw [Ordered.mem_put _ (table.ordered s hs), Ne, table.place_eq_iff]
  split
  · rename_i hkey
    constructor
    · rintro (rfl | ⟨_, hne⟩)
      · rfl
      · exact absurd hkey.symm hne
    · exact fun h => .inl h.symm
  · rename_i hkey
    constructor
    · rintro (rfl | ⟨hmem, _⟩)
      · exact absurd rfl hkey
      · exact hmem
    · exact fun hmem => .inr ⟨hmem, fun heq => hkey heq.symm⟩

lemma Remembers.apply (hs : s.Consistent) (hpast : table.Remembers s past)
    (h : s.apply change = .ok (t, created)) : table.Remembers t (past ++ [⟨.change change, .ok created⟩]) := by
  have hrows := table.rows_apply s t change created h
  have hevent : table.rowOf? ⟨.change change, .ok created⟩ = table.written? change := rfl
  intro other
  cases hrow : table.written? change with
  | none =>
    rw [hrow] at hrows hevent
    rw [hrows, last?_concat_of_none hevent]
    exact hpast other
  | some row =>
    rw [hrow] at hrows hevent
    rw [hrows, last?_concat_of_some hevent, Option.elim_some, mem_put_row hs]
    split
    · rw [Option.some.injEq]
    · exact hpast other

/-- One operation. -/
lemma Remembers.perform (hs : s.Consistent) (hpast : table.Remembers s past) {operation : Operation}
    (h : (Database.ready s).perform operation = (.ready t, event)) : table.Remembers t (past ++ [event]) := by
  cases operation with
  | createTables =>
    cases h
    exact hpast.concat_of_none rfl
  | change change =>
    rw [Database.perform, Database.apply] at h
    cases happly : s.apply change with
    | error fault =>
      rw [happly] at h
      cases h
      exact hpast.concat_of_none rfl
    | ok result =>
      rw [happly] at h
      cases h
      exact hpast.apply hs happly

/-- All operations. -/
lemma Remembers.performAll (hs : s.Consistent) (hpast : table.Remembers s past) {operations : List Operation}
    (h : (Database.ready s).performAll operations = (.ready t, history)) : table.Remembers t (past ++ history) := by
  induction operations generalizing s past history with
  | nil =>
    cases h
    rwa [List.append_nil]
  | cons operation rest ih =>
    obtain ⟨u, event, hperform, hu, _⟩ := Database.perform_ready hs operation
    rw [Database.performAll_cons hperform] at h
    obtain ⟨hlast, rfl⟩ := Prod.mk.inj h
    have hmore := ih hu (hpast.perform hs hperform) (Prod.ext hlast rfl)
    rwa [List.append_assoc, List.singleton_append] at hmore

/-- Whatever is done to a new catalog, the table holds the rows that were written last. -/
theorem remembers_of_performAll {operations : List Operation}
    (h : Database.blank.createTables.performAll operations = (.ready s, history)) : table.Remembers s history :=
  remembers_empty.performAll Store.consistent_empty h

end WrittenTable

lemma consistent_of_performAll {operations : List Operation} {s : Store} {history : List Event}
    (h : Database.blank.createTables.performAll operations = (.ready s, history)) : s.Consistent := by
  obtain ⟨t, _, hrun, ht, _⟩ := Database.performAll_ready Store.consistent_empty operations
  cases (Prod.mk.inj (h.symm.trans hrun)).1
  exact ht

/-- The member that a change adds. -/
def Change.member? : Change → Option Member
  | addMember collection image weight => some ⟨collection, image, weight⟩
  | _ => none

/-- The hashes that a change stores. -/
def Change.hashes? : Change → Option StoredHash
  | setImageHashes image pair => some ⟨image, pair⟩
  | _ => none

namespace Store

variable {s t : Store} {change : Change} {created : Option UInt64}

/-- Only a change that adds a member changes the members, and only one that stores hashes changes the hashes. -/
lemma written_apply (h : s.apply change = .ok (t, created)) :
    t.members = change.member?.elim s.members (fun m => Ordered.put Member.key m s.members) ∧
      t.hashes = change.hashes?.elim s.hashes fun h => Ordered.put StoredHash.key h s.hashes := by
  cases change with
  | createUser name =>
    obtain ⟨id, hid, rfl⟩ := map_some_eq_ok h
    obtain ⟨_, _, _, rfl⟩ := createUser_eq_ok hid
    exact ⟨rfl, rfl⟩
  | createTag name description uploader uploaded =>
    obtain ⟨id, hid, rfl⟩ := map_some_eq_ok h
    obtain ⟨_, _, _, rfl⟩ := createTag_eq_ok hid
    exact ⟨rfl, rfl⟩
  | createImage name location uploader =>
    obtain ⟨id, hid, rfl⟩ := map_some_eq_ok h
    obtain ⟨_, _, rfl⟩ := createImage_eq_ok hid
    exact ⟨rfl, rfl⟩
  | createCollection name description uploader =>
    obtain ⟨id, hid, rfl⟩ := map_some_eq_ok h
    obtain ⟨_, _, _, rfl⟩ := createCollection_eq_ok hid
    exact ⟨rfl, rfl⟩
  | setUserFilter | setTagTime | aliasTag | setImageRating | setImageScores =>
    cases h
    exact ⟨rfl, rfl⟩
  | tagImage image tag =>
    obtain ⟨hlink, rfl⟩ := pair_none_eq_ok h
    obtain ⟨_, _, rfl⟩ := tagImage_eq_ok hlink
    exact ⟨rfl, rfl⟩
  | setImageHashes image pair =>
    obtain ⟨hhashes, rfl⟩ := pair_none_eq_ok h
    obtain ⟨_, rfl⟩ := setImageHashes_eq_ok hhashes
    exact ⟨rfl, rfl⟩
  | addMember collection image weight =>
    obtain ⟨hmember, rfl⟩ := pair_none_eq_ok h
    obtain ⟨_, _, rfl⟩ := addMember_eq_ok hmember
    exact ⟨rfl, rfl⟩

end Store

/-- The members of all collections. -/
def memberTable : WrittenTable Member (UInt64 × UInt64) where
  rows := Store.members
  written? := Change.member?
  key m := (m.collection, m.image)
  place := Member.key
  place_eq_iff _ _ := Store.pairKey_inj.trans (Iff.of_eq (Prod.mk.injEq _ _ _ _).symm)
  rows_empty := rfl
  ordered _ hs := hs.members
  rows_apply _ _ _ _ h := (Store.written_apply h).1

/-- The hashes of all images. -/
def hashTable : WrittenTable StoredHash UInt64 where
  rows := Store.hashes
  written? := Change.hashes?
  key := StoredHash.image
  place := StoredHash.key
  place_eq_iff _ _ := UInt64.toNat_inj
  rows_empty := rfl
  ordered _ hs := hs.hashes
  rows_apply _ _ _ _ h := (Store.written_apply h).2

/-- The pair of hashes that was stored last for an image. -/
def lastPair? (history : List Event) (image : UInt64) : Option HashPair :=
  (hashTable.last? history image).map StoredHash.pair

lemma lastPair?_eq_some {history : List Event} {image : UInt64} {pair : HashPair} :
    lastPair? history image = some pair ↔ hashTable.last? history image = some ⟨image, pair⟩ := by
  rw [lastPair?, Option.map_eq_some_iff]
  constructor
  · rintro ⟨row, hlast, rfl⟩
    have himage : row.image = image := WrittenTable.key_of_last? hlast
    rw [hlast, ← himage]
  · exact fun hlast => ⟨_, hlast, rfl⟩

lemma Store.imageHashes_eq_some {s : Store} (hs : s.Consistent) {image : UInt64} {pair : HashPair} :
    s.imageHashes? image = some pair ↔ ⟨image, pair⟩ ∈ s.hashes := by
  rw [imageHashes?, Option.map_eq_some_iff]
  constructor
  · rintro ⟨row, hfind, rfl⟩
    have himage := List.find?_some hfind
    rw [decide_eq_true_eq] at himage
    exact himage ▸ List.mem_of_find?_eq_some hfind
  · intro hmem
    have hnodup : (s.hashes.map StoredHash.image).Nodup :=
      nodup_map_of_isOrdered hs.hashes fun a b h => congrArg UInt64.toNat h
    exact ⟨_, find?_of_mem hnodup hmem, rfl⟩

/-- The stored hashes of an image are those that were written last. -/
theorem imageHashes_of_performAll {operations : List Operation} {s : Store} {history : List Event}
    (h : Database.blank.createTables.performAll operations = (.ready s, history)) (image : UInt64) :
    s.imageHashes? image = lastPair? history image := by
  have hremembers : hashTable.Remembers s history := WrittenTable.remembers_of_performAll h
  refine Option.ext fun pair => ?_
  rw [Store.imageHashes_eq_some (consistent_of_performAll h), lastPair?_eq_some]
  exact hremembers ⟨image, pair⟩

end TagSearch
