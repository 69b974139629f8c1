/-!
Lists in strictly ascending order of a numeric key. A list holds one entry for each key, so it is a set of keys or
a table with a primary key.
-/
namespace TagSearch.Ordered

variable {α : Type}

/-- Put an entry in its place; an entry of the same key is replaced. -/
def put (key : α → Nat) (a : α) : List α → List α
  | [] => [a]
  | b :: rest =>
    if key a < key b then a :: b :: rest
    else if key b < key a then b :: put key a rest
    else a :: rest

/-- Put an entry in its place unless there is one of the same key. -/
def add (key : α → Nat) (a : α) : List α → List α
  | [] => [a]
  | b :: rest =>
    if key a < key b then a :: b :: rest
    else if key b < key a then b :: add key a rest
    else b :: rest

/-- All entries in their places, for each key the last one. -/
def ofList (key : α → Nat) (entries : List α) : List α :=
  entries.foldl (fun table a => put key a table) []

/-- Strictly ascending keys. -/
def IsOrdered (key : α → Nat) (table : List α) : Prop :=
  table.Pairwise fun a b => key a < key b

variable (key : α → Nat)

theorem mem_of_mem_put {a b : α} {table : List α} (h : b ∈ put key a table) : b = a ∨ b ∈ table := by
  induction table with
  | nil => simpa [put] using h
  | cons c rest ih =>
    rw [put] at h
    split at h
    · simpa using h
    · split at h
      · rcases List.mem_cons.1 h with rfl | h
        · simp
        · rcases ih h with rfl | h <;> simp_all
      · rcases List.mem_cons.1 h with rfl | h <;> simp_all

theorem isOrdered_put (a : α) {table : List α} (h : IsOrdered key table) : IsOrdered key (put key a table) := by
  induction table with
  | nil => simp [put, IsOrdered]
  | cons b rest ih =>
    have hb := List.pairwise_cons.1 h
    rw [put]
    split
    · rename_i hab
      refine List.pairwise_cons.2 ⟨fun c hc => ?_, h⟩
      rcases List.mem_cons.1 hc with rfl | hc
      · exact hab
      · exact Nat.lt_trans hab (hb.1 c hc)
    · split
      · rename_i hba
        refine List.pairwise_cons.2 ⟨fun c hc => ?_, ih hb.2⟩
        rcases mem_of_mem_put key hc with rfl | hc
        · exact hba
        · exact hb.1 c hc
      · rename_i h1 h2
        refine List.pairwise_cons.2 ⟨fun c hc => ?_, hb.2⟩
        have := hb.1 c hc
        omega

/-- What a put leaves: the new entry, and the old ones of other keys. -/
theorem mem_put {a b : α} {table : List α} (h : IsOrdered key table) :
    b ∈ put key a table ↔ b = a ∨ (b ∈ table ∧ key b ≠ key a) := by
  induction table with
  | nil => simp [put]
  | cons c rest ih =>
    have hc := List.pairwise_cons.1 h
    rw [put]
    split
    · rename_i hac
      have habove : ∀ d ∈ c :: rest, key d ≠ key a := by
        intro d hd
        rcases List.mem_cons.1 hd with rfl | hd
        · omega
        · have := hc.1 d hd
          omega
      rw [List.mem_cons]
      exact or_congr_right ⟨fun hb => ⟨hb, habove b hb⟩, And.left⟩
    · split
      · rename_i hca
        have hne : key c ≠ key a := by omega
        rw [List.mem_cons, ih hc.2, List.mem_cons]
        constructor
        · rintro (rfl | rfl | ⟨hb, hk⟩)
          · exact .inr ⟨.inl rfl, hne⟩
          · exact .inl rfl
          · exact .inr ⟨.inr hb, hk⟩
        · rintro (rfl | ⟨rfl | hb, hk⟩)
          · exact .inr (.inl rfl)
          · exact .inl rfl
          · exact .inr (.inr ⟨hb, hk⟩)
      · have hca : key c = key a := by omega
        rw [List.mem_cons, List.mem_cons]
        constructor
        · rintro (rfl | hb)
          · exact .inl rfl
          · have := hc.1 b hb
            exact .inr ⟨.inr hb, by omega⟩
        · rintro (rfl | ⟨rfl | hb, hk⟩)
          · exact .inl rfl
          · exact absurd hca hk
          · exact .inr hb

theorem mem_of_mem_add {a b : α} {table : List α} (h : b ∈ add key a table) : b = a ∨ b ∈ table := by
  induction table with
  | nil => simpa [add] using h
  | cons c rest ih =>
    rw [add] at h
    split at h
    · simpa using h
    · split at h
      · rcases List.mem_cons.1 h with rfl | h
        · simp
        · exact (ih h).imp id (List.mem_cons_of_mem c)
      · exact .inr h

theorem isOrdered_add (a : α) {table : List α} (h : IsOrdered key table) : IsOrdered key (add key a table) := by
  induction table with
  | nil => simp [add, IsOrdered]
  | cons b rest ih =>
    have hb := List.pairwise_cons.1 h
    rw [add]
    split
    · rename_i hab
      refine List.pairwise_cons.2 ⟨fun c hc => ?_, h⟩
      rcases List.mem_cons.1 hc with rfl | hc
      · exact hab
      · exact Nat.lt_trans hab (hb.1 c hc)
    · split
      · rename_i hba
        refine List.pairwise_cons.2 ⟨fun c hc => ?_, ih hb.2⟩
        rcases mem_of_mem_add key hc with rfl | hc
        · exact hba
        · exact hb.1 c hc
      · exact h

/-- What an addition leaves: the old entries, and the new one if its key was free. -/
theorem mem_add {a b : α} {table : List α} (h : IsOrdered key table) :
    b ∈ add key a table ↔ b ∈ table ∨ (b = a ∧ ∀ c ∈ table, key c ≠ key a) := by
  induction table with
  | nil => simp [add]
  | cons c rest ih =>
    have hc := List.pairwise_cons.1 h
    rw [add]
    split
    · rename_i hac
      have habove : ∀ d ∈ c :: rest, key d ≠ key a := by
        intro d hd
        rcases List.mem_cons.1 hd with rfl | hd
        · omega
        · have := hc.1 d hd
          omega
      rw [List.mem_cons, or_comm]
      exact or_congr_right ⟨fun hb => ⟨hb, habove⟩, And.left⟩
    · split
      · rename_i hca
        have hne : key c ≠ key a := by omega
        rw [List.mem_cons, ih hc.2, List.mem_cons, List.forall_mem_cons, or_assoc, and_iff_right hne]
      · have hca : key c = key a := by omega
        refine ⟨.inl, ?_⟩
        rintro (hb | ⟨_, hfree⟩)
        · exact hb
        · exact absurd hca (hfree c List.mem_cons_self)

/-- Entries from a list put into a table one after the other keep it ordered. -/
theorem isOrdered_foldl_put (entries : List α) {table : List α} (h : IsOrdered key table) :
    IsOrdered key (entries.foldl (fun table a => put key a table) table) := by
  induction entries generalizing table with
  | nil => exact h
  | cons a rest ih => exact ih (isOrdered_put key a h)

theorem isOrdered_ofList (entries : List α) : IsOrdered key (ofList key entries) :=
  isOrdered_foldl_put key entries List.Pairwise.nil

/-- No entry is lost when no two entries share a key. -/
theorem mem_foldl_put (hkey : ∀ a b, key a = key b → a = b) {b : α} (entries : List α) {table : List α}
    (h : IsOrdered key table) :
    b ∈ entries.foldl (fun table a => put key a table) table ↔ b ∈ entries ∨ b ∈ table := by
  induction entries generalizing table with
  | nil => simp
  | cons a rest ih =>
    rw [List.foldl_cons, ih (isOrdered_put key a h), mem_put key h, List.mem_cons]
    constructor
    · rintro (hb | rfl | ⟨hb, _⟩)
      · exact .inl (.inr hb)
      · exact .inl (.inl rfl)
      · exact .inr hb
    · rintro ((rfl | hb) | hb)
      · exact .inr (.inl rfl)
      · exact .inl hb
      · by_cases hba : key b = key a
        · exact .inr (.inl (hkey b a hba))
        · exact .inr (.inr ⟨hb, hba⟩)

/-- Entries of different keys all stay, and of the old entries those of other keys. -/
theorem mem_foldl_put_of_pairwise {b : α} {entries table : List α}
    (hentries : entries.Pairwise fun a b => key a ≠ key b) (h : IsOrdered key table) :
    b ∈ entries.foldl (fun table a => put key a table) table ↔
      b ∈ entries ∨ (b ∈ table ∧ ∀ a ∈ entries, key b ≠ key a) := by
  induction entries generalizing table with
  | nil => simp
  | cons a rest ih =>
    have ha := List.pairwise_cons.1 hentries
    rw [List.foldl_cons, ih ha.2 (isOrdered_put key a h), mem_put key h, List.mem_cons, List.forall_mem_cons]
    constructor
    · rintro (hb | ⟨rfl | ⟨hb, hba⟩, hrest⟩)
      · exact .inl (.inr hb)
      · exact .inl (.inl rfl)
      · exact .inr ⟨hb, hba, hrest⟩
    · rintro ((rfl | hb) | ⟨hb, hba, hrest⟩)
      · exact .inr ⟨.inl rfl, ha.1⟩
      · exact .inl hb
      · exact .inr ⟨.inr ⟨hb, hba⟩, hrest⟩

theorem mem_ofList (hkey : ∀ a b, key a = key b → a = b) {b : α} (entries : List α) :
    b ∈ ofList key entries ↔ b ∈ entries := by
  rw [ofList, mem_foldl_put key hkey entries List.Pairwise.nil]
  simp

variable {key}

theorem IsOrdered.nodup {table : List α} (h : IsOrdered key table) : table.Nodup :=
  List.Pairwise.imp (fun hab e => by subst e; exact Nat.lt_irrefl _ hab) h

/-- A table has one entry for each key. -/
theorem IsOrdered.eq_of_key_eq {a b : α} {table : List α} (h : IsOrdered key table) (ha : a ∈ table) (hb : b ∈ table)
    (hkey : key a = key b) : a = b := by
  induction table with
  | nil => cases ha
  | cons c rest ih =>
    have hc := List.pairwise_cons.1 h
    rw [List.mem_cons] at ha hb
    rcases ha with rfl | ha <;> rcases hb with rfl | hb
    · rfl
    · have := hc.1 b hb
      omega
    · have := hc.1 a ha
      omega
    · exact ih hc.2 ha hb

/-- A table is known by its entries. -/
theorem IsOrdered.ext {table other : List α} (h : IsOrdered key table) (hother : IsOrdered key other)
    (hmem : ∀ a, a ∈ table ↔ a ∈ other) : table = other := by
  have hperm : table.Perm other := (List.perm_ext_iff_of_nodup h.nodup hother.nodup).2 hmem
  exact hperm.eq_of_pairwise (fun a b _ _ hab hba => absurd hba (Nat.lt_asymm hab)) h hother

/-- Entries of different keys may be put in either order. -/
theorem put_comm {a b : α} {table : List α} (h : IsOrdered key table) (hab : key a ≠ key b) :
    put key a (put key b table) = put key b (put key a table) := by
  have ha := isOrdered_put key a h
  have hb := isOrdered_put key b h
  refine (isOrdered_put key a hb).ext (isOrdered_put key b ha) fun c => ?_
  rw [mem_put key hb, mem_put key h, mem_put key ha, mem_put key h]
  constructor
  · rintro (rfl | ⟨rfl | ⟨hc, hcb⟩, hca⟩)
    · exact .inr ⟨.inl rfl, hab⟩
    · exact .inl rfl
    · exact .inr ⟨.inr ⟨hc, hca⟩, hcb⟩
  · rintro (rfl | ⟨rfl | ⟨hc, hca⟩, hcb⟩)
    · exact .inr ⟨.inl rfl, hab.symm⟩
    · exact .inl rfl
    · exact .inr ⟨.inr ⟨hc, hcb⟩, hca⟩

/-- Where a key is the whole entry, entries may be added in either order. -/
theorem add_comm {a b : α} {table : List α} (h : IsOrdered key table) (hkey : ∀ c d, key c = key d → c = d) :
    add key a (add key b table) = add key b (add key a table) := by
  have ha := isOrdered_add key a h
  have hb := isOrdered_add key b h
  have hmem : ∀ {c d : α} {entries : List α}, IsOrdered key entries → (c ∈ add key d entries ↔ c ∈ entries ∨ c = d) := by
    intro c d entries hentries
    rw [mem_add key hentries]
    constructor
    · exact Or.imp id And.left
    · rintro (hc | rfl)
      · exact .inl hc
      · by_cases hd : c ∈ entries
        · exact .inl hd
        · exact .inr ⟨rfl, fun e he heq => hd (hkey e c heq ▸ he)⟩
  refine (isOrdered_add key a hb).ext (isOrdered_add key b ha) fun c => ?_
  rw [hmem hb, hmem h, hmem ha, hmem h, or_right_comm]

end TagSearch.Ordered
