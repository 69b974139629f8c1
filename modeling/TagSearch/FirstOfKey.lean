/-! The first entry of every key, in order. -/
namespace TagSearch

/-- Keep an entry when its key is not one of those seen, and see its key. -/
@[specialize]
def firstOfKeyFrom {α κ : Type} [DecidableEq κ] (key : α → κ) (seen : List κ) : List α → List α
  | [] => []
  | a :: rest =>
    if seen.contains (key a) then firstOfKeyFrom key seen rest else a :: firstOfKeyFrom key (key a :: seen) rest

/-- Keep an entry when no earlier entry has its key. -/
@[specialize]
def firstOfKey {α κ : Type} [DecidableEq κ] (key : α → κ) (entries : List α) : List α :=
  firstOfKeyFrom key [] entries

variable {α κ : Type} [DecidableEq κ] (key : α → κ)

/-- A key that is seen drops its entries. -/
theorem firstOfKeyFrom_cons (k : κ) (seen : List κ) (entries : List α) :
    firstOfKeyFrom key (k :: seen) entries = (firstOfKeyFrom key seen entries).filter fun a => key a ≠ k := by
  induction entries generalizing k seen with
  | nil => rfl
  | cons a rest ih =>
    rw [firstOfKeyFrom, firstOfKeyFrom, List.contains_cons]
    by_cases hseen : seen.contains (key a) = true
    · rw [if_pos hseen, if_pos (by rw [hseen, Bool.or_true]), ih]
    · rw [if_neg hseen]
      by_cases hk : key a = k
      · rw [if_pos (by simp [hk]), List.filter_cons, if_neg (by simp [hk]), hk, ih, List.filter_filter]
        simp
      · rw [if_neg (by simpa [hk] using hseen), List.filter_cons, if_pos (by simp [hk]), ih, ih, ih,
          List.filter_filter, List.filter_filter]
        exact congrArg (List.cons a) (List.filter_congr fun b _ => Bool.and_comm _ _)

@[simp] theorem firstOfKey_nil : firstOfKey key [] = [] := rfl

/-- The first entry is kept, and drops the later ones of its key. -/
theorem firstOfKey_cons (a : α) (rest : List α) :
    firstOfKey key (a :: rest) = a :: (firstOfKey key rest).filter fun b => key b ≠ key a := by
  rw [firstOfKey, firstOfKeyFrom, if_neg (by simp), firstOfKeyFrom_cons, firstOfKey]

theorem mem_of_mem_firstOfKey {a : α} {entries : List α} (h : a ∈ firstOfKey key entries) : a ∈ entries := by
  induction entries with
  | nil => simp at h
  | cons b rest ih =>
    rw [firstOfKey_cons, List.mem_cons, List.mem_filter] at h
    rcases h with rfl | h
    · simp
    · exact List.mem_cons_of_mem _ (ih h.1)

/-- The keys that are kept are pairwise distinct. -/
theorem firstOfKey_pairwise (entries : List α) :
    (firstOfKey key entries).Pairwise fun a b => key a ≠ key b := by
  induction entries with
  | nil => simp
  | cons a rest ih =>
    rw [firstOfKey_cons, List.pairwise_cons]
    refine ⟨fun b hb => ?_, ih.filter _⟩
    have h := (List.mem_filter.1 hb).2
    simp only [ne_eq, decide_eq_true_eq] at h
    exact fun e => h e.symm

/-- Nothing is dropped where no key occurs twice. -/
theorem firstOfKey_eq_self {entries : List α} (h : entries.Pairwise fun a b => key a ≠ key b) :
    firstOfKey key entries = entries := by
  induction h with
  | nil => rfl
  | cons hfirst _ ih =>
    rw [firstOfKey_cons, ih, List.filter_eq_self.2 fun b hb => decide_eq_true (hfirst b hb).symm]

/-- No key is lost. -/
theorem mem_map_firstOfKey {k : κ} {entries : List α} :
    k ∈ (firstOfKey key entries).map key ↔ k ∈ entries.map key := by
  induction entries with
  | nil => simp
  | cons a rest ih =>
    simp only [firstOfKey_cons, List.map_cons, List.mem_cons, List.mem_map, List.mem_filter] at ih ⊢
    by_cases hk : k = key a
    · simp [hk]
    · simp only [hk, false_or]
      rw [← ih]
      constructor
      · rintro ⟨b, ⟨hb, _⟩, rfl⟩
        exact ⟨b, hb, rfl⟩
      · rintro ⟨b, hb, rfl⟩
        exact ⟨b, ⟨hb, by simpa using hk⟩, rfl⟩

/-- An entry is kept when it stands behind entries of other keys only. -/
theorem mem_firstOfKey {a : α} {entries : List α} :
    a ∈ firstOfKey key entries ↔
      ∃ before after, entries = before ++ a :: after ∧ ∀ b ∈ before, key b ≠ key a := by
  induction entries with
  | nil => simp
  | cons c rest ih =>
    rw [firstOfKey_cons, List.mem_cons, List.mem_filter, ih]
    constructor
    · rintro (rfl | ⟨⟨before, after, rfl, hb⟩, hk⟩)
      · exact ⟨[], rest, rfl, by simp⟩
      · refine ⟨c :: before, after, rfl, fun b hb' => ?_⟩
        rcases List.mem_cons.1 hb' with rfl | hb'
        · exact fun e => of_decide_eq_true hk e.symm
        · exact hb b hb'
    · rintro ⟨before, after, h, hb⟩
      cases before with
      | nil => exact .inl (List.cons.inj h).1.symm
      | cons d before =>
        obtain ⟨rfl, rfl⟩ := List.cons.inj h
        refine .inr ⟨⟨before, after, rfl, fun b hb' => hb b (List.mem_cons_of_mem c hb')⟩, ?_⟩
        exact decide_eq_true fun e => hb c List.mem_cons_self e.symm

/-- Of a second list, the entries stay whose keys are not in the first. -/
theorem firstOfKey_append (entries others : List α) :
    firstOfKey key (entries ++ others) =
      firstOfKey key entries ++ (firstOfKey key others).filter fun b => key b ∉ entries.map key := by
  induction entries with
  | nil => exact (List.filter_eq_self.2 fun b _ => decide_eq_true List.not_mem_nil).symm
  | cons a rest ih =>
    rw [List.cons_append, firstOfKey_cons, ih, firstOfKey_cons, List.filter_append, List.filter_filter]
    simp only [List.map_cons, List.mem_cons, not_or, List.cons_append, Bool.decide_and]

/-- The first entries of a list may be taken before another list is put behind it. -/
theorem firstOfKey_firstOfKey_append (entries others : List α) :
    firstOfKey key (firstOfKey key entries ++ others) = firstOfKey key (entries ++ others) := by
  rw [firstOfKey_append, firstOfKey_append, firstOfKey_eq_self key (firstOfKey_pairwise key entries)]
  refine congrArg (firstOfKey key entries ++ ·) (List.filter_congr fun b _ => ?_)
  simp only [mem_map_firstOfKey]

/-- The first entries of a list may be taken before it is put behind another list. -/
theorem firstOfKey_append_firstOfKey (entries others : List α) :
    firstOfKey key (entries ++ firstOfKey key others) = firstOfKey key (entries ++ others) := by
  rw [firstOfKey_append, firstOfKey_append, firstOfKey_eq_self key (firstOfKey_pairwise key others)]

theorem firstOfKey_map {β : Type} (f : β → α) (entries : List β) :
    firstOfKey key (entries.map f) = (firstOfKey (fun b => key (f b)) entries).map f := by
  induction entries with
  | nil => rfl
  | cons b rest ih =>
    rw [List.map_cons, firstOfKey_cons, ih, firstOfKey_cons, List.map_cons, List.filter_map]
    rfl

/-- Entries may be chosen by their keys before or after. -/
theorem firstOfKey_filter (p : κ → Bool) (entries : List α) :
    firstOfKey key (entries.filter fun a => p (key a)) = (firstOfKey key entries).filter fun a => p (key a) := by
  induction entries with
  | nil => rfl
  | cons a rest ih =>
    rw [List.filter_cons, firstOfKey_cons, List.filter_cons]
    by_cases ha : p (key a) = true
    · rw [if_pos ha, if_pos ha, firstOfKey_cons, ih, List.filter_filter, List.filter_filter]
      exact congrArg (List.cons a) (List.filter_congr fun b _ => Bool.and_comm _ _)
    · rw [if_neg ha, if_neg ha, ih, List.filter_filter]
      refine List.filter_congr fun b _ => ?_
      by_cases hb : key b = key a
      · simp [hb, ha]
      · simp [hb]

/-- Keeping the first entries of a finer key before makes no difference. -/
theorem firstOfKey_firstOfKey {κ' : Type} [DecidableEq κ'] (f : κ → κ') (entries : List α) :
    firstOfKey (fun a => f (key a)) (firstOfKey key entries) = firstOfKey (fun a => f (key a)) entries := by
  induction entries with
  | nil => rfl
  | cons a rest ih =>
    have hchoose := firstOfKey_filter (fun b => f (key b)) fun k => decide (k ≠ f (key a))
    have hfiner : ((firstOfKey key rest).filter fun b => key b ≠ key a).filter (fun b => f (key b) ≠ f (key a)) =
        (firstOfKey key rest).filter fun b => f (key b) ≠ f (key a) := by
      rw [List.filter_filter]
      refine List.filter_congr fun b _ => ?_
      by_cases hb : key b = key a <;> simp [hb]
    rw [firstOfKey_cons, firstOfKey_cons, firstOfKey_cons, ← hchoose, hfiner, hchoose, ih]

/-- The kept entries are those that no entry in front of their place has the key of. -/
theorem firstOfKey_eq_filter (entries : List α) :
    firstOfKey key entries =
      (entries.zipIdx.filter fun x : α × Nat => ∀ b ∈ entries.take x.2, key b ≠ key x.1).map Prod.fst := by
  induction entries with
  | nil => rfl
  | cons a rest ih =>
    have hplaces : (rest.zipIdx 1).filter (fun x : α × Nat => ∀ b ∈ (a :: rest).take x.2, key b ≠ key x.1) =
        (rest.zipIdx.filter fun x : α × Nat => key x.1 ≠ key a ∧ ∀ b ∈ rest.take x.2, key b ≠ key x.1).map
          fun x => (x.1, x.2 + 1) := by
      rw [List.zipIdx_succ, List.filter_map]
      refine congrArg (List.map fun x : α × Nat => (x.1, x.2 + 1)) (List.filter_congr fun x _ => ?_)
      simp only [Function.comp_apply, List.take_succ_cons, List.forall_mem_cons, decide_eq_decide]
      exact and_congr_left' ⟨Ne.symm, Ne.symm⟩
    rw [firstOfKey_cons, ih, List.zipIdx_cons, List.filter_cons, if_pos (by simp), hplaces, List.map_cons,
      List.map_map, List.filter_map, List.filter_filter]
    simp [Function.comp_def]

@[simp] theorem mem_firstOfKey_id {a : κ} {entries : List κ} : a ∈ firstOfKey id entries ↔ a ∈ entries := by
  have h := @mem_map_firstOfKey κ κ _ id a entries
  rwa [List.map_id, List.map_id] at h

theorem firstOfKey_id_nodup (entries : List κ) : (firstOfKey id entries).Nodup :=
  firstOfKey_pairwise id entries

section Gives

variable {key} {β : Type} {g : β → Option α}

/-- The entry at a place is the first one in a list that gives something of its key. -/
structure FirstGives {α β κ : Type} (key : α → κ) (g : β → Option α) (entries : List β) (place : Nat) (b : β)
    (a : α) : Prop where
  getElem : entries[place]? = some b
  gives : g b = some a
  first : ∀ c ∈ entries.take place, ∀ a', g c = some a' → key a' ≠ key a

omit [DecidableEq κ] in
theorem firstGives_zero {entries : List β} {a : α} {b c : β} :
    FirstGives key g (c :: entries) 0 b a ↔ c = b ∧ g c = some a := by
  constructor
  · rintro ⟨hget, hgives, _⟩
    obtain rfl : c = b := by simpa using hget
    exact ⟨rfl, hgives⟩
  · rintro ⟨rfl, hgives⟩
    exact ⟨rfl, hgives, by simp⟩

omit [DecidableEq κ] in
theorem firstGives_succ {entries : List β} {place : Nat} {a : α} {b c : β} :
    FirstGives key g (c :: entries) (place + 1) b a ↔
      (∀ a', g c = some a' → key a' ≠ key a) ∧ FirstGives key g entries place b a := by
  constructor
  · rintro ⟨hget, hgives, hfirst⟩
    rw [List.take_succ_cons, List.forall_mem_cons] at hfirst
    exact ⟨hfirst.1, by simpa using hget, hgives, hfirst.2⟩
  · rintro ⟨hc, hget, hgives, hfirst⟩
    refine ⟨by simpa using hget, hgives, ?_⟩
    rw [List.take_succ_cons, List.forall_mem_cons]
    exact ⟨hc, hfirst⟩

/-- What is kept of the things that the entries of a list give, is what some entry is the first one to give. -/
theorem mem_firstOfKey_filterMap {entries : List β} {a : α} :
    a ∈ firstOfKey key (entries.filterMap g) ↔ ∃ place b, FirstGives key g entries place b a := by
  induction entries generalizing a with
  | nil =>
    constructor
    · intro h
      cases h
    · rintro ⟨place, b, hget, _⟩
      simp at hget
  | cons c rest ih =>
    have hsucc : (∃ place b, FirstGives key g (c :: rest) place b a) ↔
        g c = some a ∨ (∀ a', g c = some a' → key a' ≠ key a) ∧ ∃ place b, FirstGives key g rest place b a := by
      constructor
      · rintro ⟨place, b, h⟩
        cases place with
        | zero => exact .inl (firstGives_zero.mp h).2
        | succ place =>
          obtain ⟨hc, h⟩ := firstGives_succ.mp h
          exact .inr ⟨hc, place, b, h⟩
      · rintro (h | ⟨hc, place, b, h⟩)
        · exact ⟨0, c, firstGives_zero.mpr ⟨rfl, h⟩⟩
        · exact ⟨place + 1, b, firstGives_succ.mpr ⟨hc, h⟩⟩
    rw [hsucc, ← ih]
    cases hc : g c with
    | none => simp [hc]
    | some x =>
      rw [List.filterMap_cons_some hc, firstOfKey_cons, List.mem_cons, List.mem_filter, Option.some.injEq,
        eq_comm, decide_eq_true_eq, and_comm]
      refine or_congr_right (and_congr_left' ⟨?_, fun h => (h x rfl).symm⟩)
      rintro hne a' h
      rw [← Option.some.inj h]
      exact hne.symm

/-- The things that are kept stand in the order of the entries that are the first ones to give them. -/
theorem firstOfKey_filterMap_pairwise (entries : List β) :
    (firstOfKey key (entries.filterMap g)).Pairwise fun a a' =>
      ∀ place b place' b', FirstGives key g entries place b a → FirstGives key g entries place' b' a' →
        place < place' := by
  induction entries with
  | nil => exact .nil
  | cons c rest ih =>
    have hstep : ∀ {a a' : α}, (∀ place b place' b', FirstGives key g rest place b a →
        FirstGives key g rest place' b' a' → place < place') → g c ≠ some a → g c ≠ some a' →
        ∀ place b place' b', FirstGives key g (c :: rest) place b a → FirstGives key g (c :: rest) place' b' a' →
          place < place' := by
      intro a a' h ha ha' place b place' b' hfirst hfirst'
      cases place with
      | zero => exact absurd (firstGives_zero.mp hfirst).2 ha
      | succ place =>
        cases place' with
        | zero => exact absurd (firstGives_zero.mp hfirst').2 ha'
        | succ place' =>
          have := h _ _ _ _ (firstGives_succ.mp hfirst).2 (firstGives_succ.mp hfirst').2
          omega
    cases hc : g c with
    | none =>
      rw [List.filterMap_cons_none hc]
      exact ih.imp fun h => hstep h (by simp [hc]) (by simp [hc])
    | some x =>
      rw [List.filterMap_cons_some hc, firstOfKey_cons, List.pairwise_cons]
      constructor
      · intro a' ha' place b place' b' hfirst hfirst'
        have hne : key a' ≠ key x := of_decide_eq_true (List.mem_filter.mp ha').2
        cases place with
        | zero =>
          cases place' with
          | zero =>
            obtain rfl := Option.some.inj (hc.symm.trans (firstGives_zero.mp hfirst').2)
            exact absurd rfl hne
          | succ place' => omega
        | succ place => exact absurd rfl ((firstGives_succ.mp hfirst).1 x hc)
      · refine (ih.filter _).imp_of_mem fun ha ha' h => ?_
        have hne := of_decide_eq_true (List.mem_filter.mp ha).2
        have hne' := of_decide_eq_true (List.mem_filter.mp ha').2
        refine hstep h ?_ ?_
        · rintro hca
          obtain rfl := Option.some.inj (hc.symm.trans hca)
          exact hne rfl
        · rintro hca
          obtain rfl := Option.some.inj (hc.symm.trans hca)
          exact hne' rfl

end Gives

end TagSearch
