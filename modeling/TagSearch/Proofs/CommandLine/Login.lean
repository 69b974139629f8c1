import Mathlib.Data.String.Basic
import TagSearch.CommandLine.Run
import TagSearch.Proofs.Store.Integrity

/-! Logins by name. Names of users are told apart by case when they are created and not when they are looked up, so
several users may answer to one name. The first of them in the order of the names is the one who is found. -/
namespace TagSearch
namespace Store

variable {s : Store} {u v : User} {name : String}

/-- Of the users whose names are equal to a name without regard to case, the first one in the order of the names. -/
structure FirstNamed (s : Store) (name : String) (u : User) : Prop where
  mem : u ∈ s.users
  same : Text.sameName u.name name = true
  first : ∀ v ∈ s.users, Text.sameName v.name name = true → u.name ≤ v.name

lemma sameName_self (name : String) : Text.sameName name name = true := by
  rw [Text.sameName, beq_self_eq_true, beq_self_eq_true, Bool.and_self]

lemma firstNamed_self (hu : u ∈ s.users) :
    s.FirstNamed u.name u ↔ ∀ v ∈ s.users, Text.sameName v.name u.name = true → u.name ≤ v.name :=
  ⟨FirstNamed.first, fun h => ⟨hu, sameName_self u.name, h⟩⟩

/-- No two users share a name, so only one can be the first. -/
lemma FirstNamed.unique (hs : s.Consistent) (hu : s.FirstNamed name u) (hv : s.FirstNamed name v) : u = v := by
  have hname : u.name = v.name := le_antisymm (hu.first v hv.mem hv.same) (hv.first u hu.mem hu.same)
  exact List.inj_on_of_nodup_map hs.userNames hu.mem hv.mem hname

/-- The first entry of a sorted list with a property stands before all others that have it. -/
lemma find?_mergeSort_eq_some {α : Type} {le : α → α → Bool} {p : α → Bool} {entries : List α} {a : α}
    (htrans : ∀ a b c, le a b = true → le b c = true → le a c = true) (htotal : ∀ a b, (le a b || le b a) = true)
    (h : (entries.mergeSort le).find? p = some a) :
    a ∈ entries ∧ p a = true ∧ ∀ b ∈ entries, p b = true → le a b = true := by
  have hperm := List.mergeSort_perm entries le
  have hsorted := (List.pairwise_mergeSort htrans htotal entries).filter p
  rw [← List.head?_filter, List.head?_eq_some_iff] at h
  obtain ⟨rest, hrest⟩ := h
  have hmem : ∀ b, b ∈ a :: rest ↔ b ∈ entries ∧ p b = true := by
    intro b
    rw [← hrest, List.mem_filter, hperm.mem_iff]
  rw [hrest] at hsorted
  obtain ⟨ha, hpa⟩ := (hmem a).mp List.mem_cons_self
  exact ⟨ha, hpa, fun b hb hpb => le_of_sorted htotal hsorted ((hmem b).mpr ⟨hb, hpb⟩)⟩

/-- A name that some user answers to leads to the first of them. -/
lemma exists_firstNamed (hu : u ∈ s.users) (hsame : Text.sameName u.name name = true) :
    ∃ v, s.FirstNamed name v ∧ s.userIdByName name = some v.id := by
  have hsome : ((s.users.mergeSort fun a b => decide (a.name ≤ b.name)).find? fun u =>
      Text.sameName u.name name).isSome = true :=
    List.find?_isSome.mpr ⟨u, List.mem_mergeSort.mpr hu, hsame⟩
  obtain ⟨v, hfind⟩ := Option.isSome_iff_exists.mp hsome
  have htrans : ∀ a b c : User, decide (a.name ≤ b.name) = true → decide (b.name ≤ c.name) = true →
      decide (a.name ≤ c.name) = true :=
    fun a b c hab hbc => decide_eq_true (le_trans (of_decide_eq_true hab) (of_decide_eq_true hbc))
  have htotal : ∀ a b : User, (decide (a.name ≤ b.name) || decide (b.name ≤ a.name)) = true :=
    fun a b => by simpa using le_total a.name b.name
  obtain ⟨hv, hsame, hfirst⟩ := find?_mergeSort_eq_some htrans htotal hfind
  refine ⟨v, ⟨hv, hsame, fun w hw hsame => of_decide_eq_true (hfirst w hw hsame)⟩, ?_⟩
  rw [userIdByName, hfind, Option.map_some]

lemma FirstNamed.userIdByName_eq (hs : s.Consistent) (h : s.FirstNamed name u) : s.userIdByName name = some u.id := by
  obtain ⟨v, hv, hid⟩ := exists_firstNamed h.mem h.same
  rw [hid, h.unique hs hv]

lemma userFilter?_of_mem (hs : s.Consistent) (hu : u ∈ s.users) : s.userFilter? u.id = some u.filter := by
  rw [userFilter?, find?_of_mem hs.userIds.nodup hu, Option.map_some]

/-- A login by a name leads to a user: on the command line, as the value of a metatag, and to the stored filter. -/
structure LogsIn (s : Store) (name : String) (u : User) : Prop where
  id_eq : s.userIdByName name = some u.id
  option : ∀ {m : Type → Type} [Monad m] [LawfulMonad m],
    CommandLine.findUser (Database.ready s) (some name) = (pure (some u.id) : CommandLine.Step m (Option UInt64))
  uploader : ∀ comparator excluded kind,
    (Metatag.interpret "uploader" comparator name excluded kind (Database.ready s).source).result =
      .ok (.ofCondition ⟨"uploader", .user u.id, if excluded then .ne else .eq⟩ excluded)
  filter : (Database.ready s).source.userFilter u.id = .ok u.filter

lemma logsIn_of_userIdByName (hs : s.Consistent) (hu : u ∈ s.users) (h : s.userIdByName name = some u.id) :
    s.LogsIn name u := by
  have hasked : (Inquiry.userIdByName name (Database.ready s).source).result = .ok (some u.id) := by
    rw [← h]
    rfl
  refine ⟨h, fun {m} _ _ => ?_, fun comparator excluded kind => ?_, ?_⟩
  · have hinquire : CommandLine.inquire (Database.ready s) (Inquiry.userIdByName name) =
        (pure (some u.id) : CommandLine.Step m (Option UInt64)) := by
      rw [CommandLine.inquire, hasked]
      rfl
    rw [CommandLine.findUser, hinquire, pure_bind]
  · have hd : Metatag.lookup? "uploader" kind =
        some ⟨"uploader", [], .column .uploader, .userName, .forced .eq, true, .all⟩ := by
      cases kind <;> rfl
    have hread : (Metatag.readValue "uploader" .userName name (Database.ready s).source).result =
        .ok (.user u.id) := by
      rw [Metatag.readValue, Inquiry.result_bind, hasked]
      rfl
    rw [Metatag.interpret, hd]
    simp only [Inquiry.result_bind, hread, Inquiry.result_ofExcept]
    cases excluded <;> rfl
  · simp only [Engine.source, Database.answer, userFilter?_of_mem hs hu]

/-- A login by the name of a user leads to the first user with this name but for case, to that user's id and filter.
So it leads to the user who has exactly this name when no other with the same name but for case stands before. -/
theorem login_by_own_name (hs : s.Reachable) (hu : u ∈ s.users) :
    ∃ v, s.FirstNamed u.name v ∧ s.LogsIn u.name v ∧
      (s.LogsIn u.name u ↔ ∀ w ∈ s.users, Text.sameName w.name u.name = true → u.name ≤ w.name) := by
  obtain ⟨v, hfirst, hid⟩ := exists_firstNamed hu (sameName_self u.name)
  refine ⟨v, hfirst, logsIn_of_userIdByName hs.consistent hfirst.mem hid, ?_⟩
  rw [← firstNamed_self hu]
  constructor
  · intro h
    have hids : v.id = u.id := Option.some.inj (hid.symm.trans h.id_eq)
    rwa [List.inj_on_of_nodup_map hs.consistent.userIds.nodup hfirst.mem hu hids] at hfirst
  · intro h
    exact logsIn_of_userIdByName hs.consistent hu (h.userIdByName_eq hs.consistent)

/-- Two users whose names differ in case. The first one has a filter. -/
def twins : Store :=
  empty.run [.createUser "Ann", .createUser "ann", .setUserFilter 1 "-sky"]

theorem login_of_first_twin : twins.LogsIn "Ann" ⟨1, "Ann", "-sky"⟩ := by
  obtain ⟨_, _, _, hiff⟩ := @login_by_own_name twins ⟨1, "Ann", "-sky"⟩ (Reachable.empty.run _) (by decide)
  exact hiff.mpr (by decide)

/-- The second twin is not found by name. The login leads to the other one, and to the other one's filter. -/
theorem login_of_second_twin :
    twins.Reachable ∧ ⟨2, "ann", ""⟩ ∈ twins.users ∧ twins.LogsIn "ann" ⟨1, "Ann", "-sky"⟩ := by
  have hs : twins.Reachable := Reachable.empty.run _
  have hfirst : twins.FirstNamed "ann" ⟨1, "Ann", "-sky"⟩ := ⟨by decide, by decide, by decide⟩
  exact ⟨hs, by decide, logsIn_of_userIdByName hs.consistent hfirst.mem (hfirst.userIdByName_eq hs.consistent)⟩

end Store
end TagSearch
