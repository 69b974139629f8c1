import Mathlib.Tactic.Lemma
import TagSearch.Metatag.Interpret

/-! The conditions that metatags have. Whatever a query writes, a metatag that is interpreted for a kind gives one of
a few conditions, and its value and comparator fit what it filters on. -/
namespace TagSearch

namespace Predicate

/-- The predicate is one that `interpret` makes for the given kind. It may be marked as part of a user filter. -/
def IsInterpreted (kind : Kind) (p : Predicate) : Prop :=
  ∃ name written value excluded source,
    (Metatag.interpret name written value excluded kind source).result = .ok { p with fromUserFilter := false }

/-- A list in which the plain tags are arbitrary and the metatags are interpreted for the given kind. -/
def AllInterpreted (kind : Kind) (predicates : List Predicate) : Prop :=
  ∀ p ∈ predicates, p.isMeta → p.IsInterpreted kind

end Predicate

namespace Metatag

/-- The comparator of a metatag with the given sign. -/
def signed (excluded : Bool) (c : Comparator) : Comparator := if excluded then c.inverse else c

/-- The conditions that the metatags of a kind have, with the sign of the metatag. -/
inductive Reads : Kind → Bool → MetaCondition → Prop
  | uploader (kind excluded user) : Reads kind excluded ⟨"uploader", .user user, signed excluded .eq⟩
  | rating (excluded text) : Reads .image excluded ⟨"rating", .text text, signed excluded .eq⟩
  | score (excluded n c) : Reads .image excluded ⟨"score", .integer n, c⟩
  | totalScore (excluded n c) : Reads .image excluded ⟨"totalscore", .integer n, c⟩
  | scoreVoters (excluded n c) : Reads .image excluded ⟨"scorevoters", .integer n, c⟩
  | inCollection (excluded b) : Reads .image excluded ⟨"incollection", .flag b, signed excluded .eq⟩
  | tagCount (excluded n c) : Reads .image excluded ⟨"tagcount", .integer n, c⟩
  | orderSimilar (pair) : Reads .image false ⟨"ordersimilar", .hashes pair, .eq⟩
  | name (kind excluded pattern) : Reads kind excluded ⟨"name", .pattern pattern, signed excluded .like⟩
  | location (excluded pattern) : Reads .image excluded ⟨"location", .pattern pattern, signed excluded .like⟩

/-- The values that a kind of value admits. -/
def ValueKind.Admits : ValueKind → Value → Prop
  | userName, v => ∃ user, v = .user user
  | text, v => ∃ s, v = .text s
  | integer, v => ∃ n, v = .integer n
  | flag, v => ∃ b, v = .flag b
  | similarity, v => ∃ pair, v = .hashes pair
  | pattern, v => ∃ s, v = .pattern s

lemma orFault_eq_ok {name value : String} {fault : ValueFault} {o : Option Value} {source : Source} {v : Value}
    (h : (orFault name value fault o source).result = .ok v) : o = some v := by
  cases o with
  | none => cases h
  | some w => cases h; rfl

/-- A value that is read has the shape of its kind. -/
theorem readValue_admits {name value : String} {kind : ValueKind} {source : Source} {v : Value}
    (h : (readValue name kind value source).result = .ok v) : kind.Admits v := by
  cases kind with
  | userName =>
    obtain ⟨user, _, h⟩ := (Inquiry.result_bind_eq_ok source).mp h
    obtain ⟨id, _, rfl⟩ := Option.map_eq_some_iff.mp (orFault_eq_ok h)
    exact ⟨id, rfl⟩
  | text =>
    have h := orFault_eq_ok h
    split at h
    · cases h
    · exact ⟨value, (Option.some.inj h).symm⟩
  | integer =>
    obtain ⟨n, _, rfl⟩ := Option.map_eq_some_iff.mp (orFault_eq_ok h)
    exact ⟨n, rfl⟩
  | flag =>
    obtain ⟨b, _, rfl⟩ := Option.map_eq_some_iff.mp (orFault_eq_ok h)
    exact ⟨b, rfl⟩
  | similarity =>
    obtain ⟨pair, _, h⟩ := (Inquiry.result_bind_eq_ok source).mp h
    exact ⟨pair, (Except.ok.inj h).symm⟩
  | pattern =>
    obtain ⟨s, _, rfl⟩ := Option.map_eq_some_iff.mp (orFault_eq_ok h)
    exact ⟨s, rfl⟩

lemma signedComparator_eq_ok {d : Descriptor} {name : String} {comparator c : Comparator} {excluded : Bool}
    (h : signedComparator d name comparator excluded = .ok c) :
    c = signed excluded comparator ∧ (excluded = true → d.negatable = true) := by
  unfold signedComparator at h
  split at h
  · rename_i hx
    split at h
    · rename_i hd
      cases h
      exact ⟨(if_pos hx).symm, fun _ => hd⟩
    · cases h
  · rename_i hx
    cases h
    exact ⟨(if_neg hx).symm, fun h => absurd h hx⟩

lemma appliesTo_of_lookup? {name : String} {kind : Kind} {d : Descriptor} (h : lookup? name kind = some d) :
    d.appliesTo kind = true := by
  have := List.find?_some h
  rw [Bool.and_eq_true] at this
  exact this.2

/-- A predicate that is interpreted comes from a row of the registry and a value that was read for it. -/
theorem interpret_eq_ok {name value : String} {written : Comparator} {excluded : Bool} {kind : Kind}
    {source : Source} {p : Predicate}
    (h : (interpret name written value excluded kind source).result = .ok p) :
    ∃ d v, lookup? name kind = some d ∧ (readValue name d.value value source).result = .ok v ∧
      (excluded = true → d.negatable = true) ∧
      p = .ofCondition ⟨d.name, v, signed excluded (d.chooseComparator written)⟩ excluded := by
  unfold interpret at h
  cases hd : lookup? name kind with
  | none => rw [hd] at h; cases h
  | some d =>
    rw [hd] at h
    obtain ⟨v, hv, h⟩ := (Inquiry.result_bind_eq_ok source).mp h
    obtain ⟨c, hc, h⟩ := (Inquiry.result_bind_eq_ok source).mp h
    rw [Inquiry.result_ofExcept] at hc
    obtain ⟨rfl, hneg⟩ := signedComparator_eq_ok hc
    cases h
    exact ⟨d, v, rfl, hv, hneg, rfl⟩

/-- A metatag is interpreted if its value is read, and with a minus sign only if it can be excluded. -/
lemma interpret_isOk {name value : String} {comparator : Comparator} {excluded : Bool} {kind : Kind}
    {source : Source} {d : Descriptor} (hd : lookup? name kind = some d) :
    (∃ p, (interpret name comparator value excluded kind source).result = .ok p) ↔
      (excluded = true → d.negatable = true) ∧
        ∃ v, (readValue name d.value value source).result = .ok v := by
  constructor
  · rintro ⟨p, hp⟩
    obtain ⟨d', v, hd', hv, hnegatable, _⟩ := interpret_eq_ok hp
    obtain rfl := Option.some.inj (hd.symm.trans hd')
    exact ⟨hnegatable, v, hv⟩
  · rintro ⟨hnegatable, v, hv⟩
    rw [interpret, hd]
    simp only [Inquiry.result_bind, hv, Inquiry.result_ofExcept, signedComparator]
    cases excluded with
    | false => exact ⟨_, rfl⟩
    | true =>
      rw [hnegatable rfl]
      exact ⟨_, rfl⟩

/-- Every row of the registry reads as a condition that fits it. -/
theorem reads_of_registry {d : Descriptor} (hd : d ∈ registry) {kind : Kind} (hkind : d.appliesTo kind = true)
    {excluded : Bool} (hneg : excluded = true → d.negatable = true) {v : Value} (hv : d.value.Admits v)
    (written : Comparator) : Reads kind excluded ⟨d.name, v, signed excluded (d.chooseComparator written)⟩ := by
  have himage : d.scope = .images → kind = .image := by
    intro hs
    rw [Descriptor.appliesTo, hs] at hkind
    exact of_decide_eq_true hkind
  simp only [registry, List.mem_cons, List.not_mem_nil, or_false] at hd
  rcases hd with rfl | rfl | rfl | rfl | rfl | rfl | rfl | rfl | rfl | rfl
  · obtain ⟨user, rfl⟩ := hv
    exact .uploader kind excluded user
  · obtain rfl := himage rfl
    obtain ⟨s, rfl⟩ := hv
    exact .rating excluded s
  · obtain rfl := himage rfl
    obtain ⟨n, rfl⟩ := hv
    exact .score excluded n _
  · obtain rfl := himage rfl
    obtain ⟨n, rfl⟩ := hv
    exact .totalScore excluded n _
  · obtain rfl := himage rfl
    obtain ⟨n, rfl⟩ := hv
    exact .scoreVoters excluded n _
  · obtain rfl := himage rfl
    obtain ⟨b, rfl⟩ := hv
    exact .inCollection excluded b
  · obtain rfl := himage rfl
    obtain ⟨n, rfl⟩ := hv
    exact .tagCount excluded n _
  · obtain rfl := himage rfl
    obtain ⟨pair, rfl⟩ := hv
    cases excluded with
    | true => exact absurd (hneg rfl) Bool.false_ne_true
    | false => exact .orderSimilar pair
  · obtain ⟨s, rfl⟩ := hv
    exact .name kind excluded s
  · obtain rfl := himage rfl
    obtain ⟨s, rfl⟩ := hv
    exact .location excluded s

end Metatag

namespace Predicate

/-- What an interpreted predicate is. -/
theorem IsInterpreted.reads {kind : Kind} {p : Predicate} (h : p.IsInterpreted kind) :
    ∃ c, p.condition = some c ∧ p.name = c.key ∧ Metatag.Reads kind p.excluded c := by
  obtain ⟨name, written, value, excluded, source, h⟩ := h
  obtain ⟨d, v, hd, hv, hneg, hp⟩ := Metatag.interpret_eq_ok h
  have hx : p.excluded = excluded := congrArg Predicate.excluded hp
  rw [hx]
  refine ⟨_, congrArg Predicate.condition hp, congrArg (fun q : Predicate => q.name) hp, ?_⟩
  exact Metatag.reads_of_registry (Metatag.mem_registry_of_lookup? hd) (Metatag.appliesTo_of_lookup? hd) hneg
    (Metatag.readValue_admits hv) written

end Predicate
end TagSearch
