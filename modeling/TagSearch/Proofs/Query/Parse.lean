import Mathlib.Data.List.Forall2
import TagSearch.Proofs.Metatag.Reading
import TagSearch.Query.Parse

/-! What a query parses to: a predicate for each of its terms, in order, and behind them the targets of aliases. -/
namespace TagSearch.Query

variable {kind : Kind} {source : Source} {raw : String}

/-- A predicate without a condition that answers a request. -/
structure Resolves (request : Request) (p : Predicate) : Prop where
  plain : p.condition = none
  name_eq : p.name = request.name
  excluded_eq : p.excluded = request.excluded
  fresh : p.fromUserFilter = false

lemma key_of_takeRow {κ : Type} [DecidableEq κ] {key : Tag → κ} {k : κ} {rows others : List Tag} {tag : Tag}
    (h : takeRow key k rows = (some tag, others)) : key tag = k := by
  have hlast := List.mem_of_getLast? (congrArg Prod.fst h)
  exact of_decide_eq_true (List.mem_filter.mp hlast).2

lemma forall₂_matchRequests (requests : List Request) (rows : List Tag) :
    List.Forall₂ Resolves requests (matchRequests requests rows) := by
  induction requests generalizing rows with
  | nil => exact .nil
  | cons request rest ih =>
    rw [matchRequests]
    cases hrow : takeRow Tag.name request.name rows with
    | mk found others =>
      cases found with
      | none => exact .cons ⟨rfl, rfl, rfl, rfl⟩ (ih others)
      | some tag => exact .cons ⟨rfl, key_of_takeRow hrow, rfl, rfl⟩ (ih others)

/-- A predicate without a condition that a target of an alias becomes. -/
structure IsTarget (p : Predicate) : Prop where
  plain : p.condition = none
  known : p.known = true
  fresh : p.fromUserFilter = false

lemma isTarget_of_mem {wanted : List (UInt64 × Bool)} {rows : List Tag} {p : Predicate}
    (h : p ∈ foundTargets wanted rows) : IsTarget p := by
  obtain ⟨⟨id, excluded⟩, _, hp⟩ := List.mem_filterMap.mp h
  obtain ⟨tag, _, rfl⟩ := Option.map_eq_some_iff.mp hp
  exact ⟨rfl, rfl, rfl⟩

lemma resolve_eq_ok {requests : List Request} {resolved : List Predicate}
    (h : (resolve requests source).result = .ok resolved) :
    ∃ found targets, resolved = found ++ targets ∧ List.Forall₂ Resolves requests found ∧
      ∀ p ∈ targets, IsTarget p := by
  unfold resolve at h
  split at h
  · rename_i hempty
    obtain rfl := List.isEmpty_iff.mp hempty
    cases h
    exact ⟨[], [], rfl, .nil, by simp⟩
  · obtain ⟨rows, _, h⟩ := (Inquiry.result_bind_eq_ok source).mp h
    have hmatch := forall₂_matchRequests requests rows
    split at h
    · cases h
      exact ⟨_, [], (List.append_nil _).symm, hmatch, by simp⟩
    · obtain ⟨targets, _, h⟩ := (Inquiry.result_bind_eq_ok source).mp h
      cases h
      exact ⟨_, _, rfl, hmatch, fun p hp => isTarget_of_mem hp⟩

/-- The predicate that a term becomes. -/
inductive Becomes (kind : Kind) (source : Source) : Term → Predicate → Prop
  | tag {name excluded p} (h : Resolves ⟨name, excluded⟩ p) : Becomes kind source ⟨.tag name, excluded⟩ p
  | metatag {name comparator value excluded p}
      (h : (Metatag.interpret name comparator value excluded kind source).result = .ok p) :
      Becomes kind source ⟨.metatag name comparator value, excluded⟩ p

lemma forall₂_slotsOf {found : List Term} {slots : List Slot} (h : (slotsOf kind found source).result = .ok slots) :
    List.Forall₂ (fun term slot => (slotOf kind term source).result = .ok slot) found slots := by
  induction found generalizing slots with
  | nil =>
    cases h
    exact .nil
  | cons term rest ih =>
    obtain ⟨slot, hslot, h⟩ := (Inquiry.result_bind_eq_ok source).mp h
    obtain ⟨more, hmore, h⟩ := (Inquiry.result_bind_eq_ok source).mp h
    cases h
    exact .cons hslot (ih hmore)

/-- Filling the slots gives every term its predicate and leaves the rest behind. -/
lemma fillSlots_eq {found : List Term} {slots : List Slot} {resolved : List Predicate} (rest : List Predicate)
    (hslots : List.Forall₂ (fun term slot => (slotOf kind term source).result = .ok slot) found slots)
    (hresolved : List.Forall₂ Resolves (slots.filterMap Slot.request?) resolved) :
    ∃ placed, fillSlots slots (resolved ++ rest) = placed ++ rest ∧
      List.Forall₂ (Becomes kind source) found placed := by
  induction hslots generalizing resolved with
  | nil =>
    cases hresolved
    exact ⟨[], rfl, .nil⟩
  | @cons term slot found slots hslot _ ih =>
    obtain ⟨form, excluded⟩ := term
    cases form with
    | tag name =>
      cases hslot
      cases hresolved with
      | @cons request p requests more hp hmore =>
        obtain ⟨placed, hfill, hplaced⟩ := ih hmore
        exact ⟨p :: placed, congrArg (List.cons p) hfill, .cons (.tag hp) hplaced⟩
    | metatag name comparator value =>
      obtain ⟨p, hp, hslot⟩ := (Inquiry.result_bind_eq_ok source).mp hslot
      cases hslot
      obtain ⟨placed, hfill, hplaced⟩ := ih hresolved
      exact ⟨p :: placed, congrArg (List.cons p) hfill, .cons (.metatag hp) hplaced⟩

/-- A query that parses gives every term its predicate, followed by targets of aliases. -/
theorem parse_eq_ok {predicates : List Predicate} (h : (parse raw kind source).result = .ok predicates) :
    ∃ placed targets, predicates = placed ++ targets ∧
      List.Forall₂ (Becomes kind source) (terms raw kind) placed ∧ ∀ p ∈ targets, IsTarget p := by
  obtain ⟨slots, hslots, h⟩ := (Inquiry.result_bind_eq_ok source).mp h
  obtain ⟨resolved, hresolved, h⟩ := (Inquiry.result_bind_eq_ok source).mp h
  obtain ⟨found, targets, rfl, hfound, htargets⟩ := resolve_eq_ok hresolved
  obtain ⟨placed, hfill, hplaced⟩ := fillSlots_eq targets (forall₂_slotsOf hslots) hfound
  cases h
  exact ⟨placed, targets, hfill, hplaced, htargets⟩

section Pairs

variable {α β : Type} {R : α → β → Prop} {left : List α} {right : List β}

lemma exists_left_of_mem (h : List.Forall₂ R left right) {b : β} (hb : b ∈ right) : ∃ a ∈ left, R a b := by
  induction h with
  | nil => cases hb
  | @cons a b' left right hab _ ih =>
    rcases List.mem_cons.mp hb with rfl | hb
    · exact ⟨a, List.mem_cons_self, hab⟩
    · obtain ⟨a', ha', hab'⟩ := ih hb
      exact ⟨a', List.mem_cons_of_mem a ha', hab'⟩

lemma exists_right_of_mem (h : List.Forall₂ R left right) {a : α} (ha : a ∈ left) : ∃ b ∈ right, R a b := by
  obtain ⟨b, hb, hab⟩ := exists_left_of_mem h.flip ha
  exact ⟨b, hb, hab⟩

/-- What has the keys of distinct entries is distinct. -/
lemma pairwise_of_forall₂ {κ : Type} {f : α → κ} {g : β → κ} (h : List.Forall₂ R left right)
    (hkey : ∀ a b, R a b → g b = f a) (hleft : left.Pairwise fun a a' => f a ≠ f a') :
    right.Pairwise fun b b' => g b ≠ g b' := by
  have hkeys : right.map g = left.map f := by
    clear hleft
    induction h with
    | nil => rfl
    | cons hab _ ih => rw [List.map_cons, List.map_cons, hkey _ _ hab, ih]
  have hdistinct : (right.map g).Pairwise (· ≠ ·) := by
    rw [hkeys]
    exact List.pairwise_map.mpr hleft
  exact List.pairwise_map.mp hdistinct

end Pairs

namespace Becomes

variable {term : Term} {p : Predicate}

lemma fresh (h : Becomes kind source term p) : p.fromUserFilter = false := by
  cases h with
  | tag h => exact h.fresh
  | metatag h =>
    obtain ⟨d, v, _, _, _, rfl⟩ := Metatag.interpret_eq_ok h
    rfl

/-- A predicate is named by the key of its term. -/
lemma name_eq_key (h : Becomes kind source term p) : p.name = term.form.key kind := by
  cases h with
  | tag h => exact h.name_eq
  | metatag h =>
    obtain ⟨d, v, hd, _, _, rfl⟩ := Metatag.interpret_eq_ok h
    rw [NormalForm.key, hd]
    rfl

/-- A condition comes from a metatag, whose row of the registry has the key of the condition. -/
lemma exists_row {c : MetaCondition} (h : Becomes kind source term p) (hc : p.condition = some c) :
    ∃ name comparator value d, term.form = .metatag name comparator value ∧ Metatag.lookup? name kind = some d ∧
      d.name = c.key := by
  cases h with
  | tag h => exact absurd (h.plain.symm.trans hc) (by simp)
  | @metatag name comparator value excluded p h =>
    obtain ⟨d, v, hd, _, _, rfl⟩ := Metatag.interpret_eq_ok h
    cases hc
    exact ⟨name, comparator, value, d, rfl, hd, rfl⟩

/-- A term that is not the tag of the name becomes a metatag of it. -/
lemma exists_condition (h : Becomes kind source term p) (hform : term.form ≠ .tag p.name) :
    ∃ c, p.condition = some c ∧ c.key = p.name := by
  cases h with
  | tag h => exact absurd (congrArg NormalForm.tag h.name_eq.symm) hform
  | metatag h =>
    obtain ⟨d, v, _, _, _, rfl⟩ := Metatag.interpret_eq_ok h
    exact ⟨_, rfl, rfl⟩

lemma isInterpreted (h : Becomes kind source term p) (hmeta : p.isMeta = true) : p.IsInterpreted kind := by
  have hfresh := h.fresh
  cases h with
  | tag h =>
    rw [Predicate.isMeta, h.plain] at hmeta
    cases hmeta
  | @metatag name comparator value excluded p h =>
    refine ⟨name, comparator, value, excluded, source, h.trans (congrArg Except.ok ?_)⟩
    cases p
    cases hfresh
    rfl

end Becomes

variable {predicates : List Predicate}

lemma fresh_of_parse (h : (parse raw kind source).result = .ok predicates) {p : Predicate} (hp : p ∈ predicates) :
    p.fromUserFilter = false := by
  obtain ⟨placed, targets, rfl, hplaced, htargets⟩ := parse_eq_ok h
  rcases List.mem_append.mp hp with hp | hp
  · obtain ⟨term, _, hterm⟩ := exists_left_of_mem hplaced hp
    exact hterm.fresh
  · exact (htargets p hp).fresh

/-- The metatags of a query that parses are interpreted. -/
theorem allInterpreted_of_parse (h : (parse raw kind source).result = .ok predicates) :
    Predicate.AllInterpreted kind predicates := by
  intro p hp hmeta
  obtain ⟨placed, targets, rfl, hplaced, htargets⟩ := parse_eq_ok h
  rcases List.mem_append.mp hp with hp | hp
  · obtain ⟨term, _, hterm⟩ := exists_left_of_mem hplaced hp
    exact hterm.isInterpreted hmeta
  · rw [Predicate.isMeta, (htargets p hp).plain] at hmeta
    cases hmeta

/-- The term that a token is. -/
def Token.term (t : Token) : Term := ⟨normalize t.text, t.negated⟩

def Token.key (kind : Kind) (t : Token) : String := (normalize t.text).key kind

@[simp] lemma Token.key_term (t : Token) : t.term.form.key kind = t.key kind := rfl

/-- The terms of a query come from the first tokens of their keys. -/
lemma terms_eq (raw : String) (kind : Kind) :
    terms raw kind = ((firstOfKey (Token.key kind) (tokenize raw)).map Token.term).filter
      fun t => !(t.form.key kind).isEmpty := by
  rw [terms, firstOfKey_filter (fun t : Term => t.form.key kind) fun k => !k.isEmpty, firstOfKey_map]
  rfl

/-- A term of a query is a token in front of which no token has its key. -/
lemma mem_terms {term : Term} :
    term ∈ terms raw kind ↔
      ∃ before t after, tokenize raw = before ++ t :: after ∧ ⟨normalize t.text, t.negated⟩ = term ∧
        term.form.key kind ≠ "" ∧ ∀ u ∈ before, (normalize u.text).key kind ≠ term.form.key kind := by
  rw [terms_eq, List.mem_filter, List.mem_map]
  constructor
  · rintro ⟨⟨t, ht, rfl⟩, hkey⟩
    obtain ⟨before, after, htokens, hbefore⟩ := (mem_firstOfKey _).mp ht
    exact ⟨before, t, after, htokens, rfl, by simpa using hkey, hbefore⟩
  · rintro ⟨before, t, after, htokens, rfl, hkey, hbefore⟩
    exact ⟨⟨t, (mem_firstOfKey _).mpr ⟨before, after, htokens, hbefore⟩, rfl⟩, by simpa using hkey⟩

/-- Every key of a token is the key of a term. -/
lemma exists_term {t : Token} (ht : t ∈ tokenize raw) (hkey : (normalize t.text).key kind ≠ "") :
    ∃ term ∈ terms raw kind, term.form.key kind = (normalize t.text).key kind := by
  have hmem : (normalize t.text).key kind ∈
      ((((tokenize raw).map fun t => (⟨normalize t.text, t.negated⟩ : Term)).filter
        fun t => !(t.form.key kind).isEmpty).map fun t => t.form.key kind) :=
    List.mem_map.mpr ⟨⟨normalize t.text, t.negated⟩,
      List.mem_filter.mpr ⟨List.mem_map_of_mem ht, by simpa using hkey⟩, rfl⟩
  exact List.mem_map.mp ((mem_map_firstOfKey _).mpr hmem)

/-- A metatag of a query is the first predicate of its name. -/
lemma metatag_first (h : (parse raw kind source).result = .ok predicates) {p : Predicate} (hp : p ∈ predicates)
    {c : MetaCondition} (hc : p.condition = some c) : p ∈ firstOfKey (fun q : Predicate => q.name) predicates := by
  obtain ⟨placed, targets, rfl, hplaced, htargets⟩ := parse_eq_ok h
  rcases List.mem_append.mp hp with hp | hp
  · have hnames : placed.Pairwise fun p q => p.name ≠ q.name :=
      pairwise_of_forall₂ hplaced (fun _ _ => Becomes.name_eq_key) (firstOfKey_pairwise _ _)
    rw [firstOfKey_append, firstOfKey_eq_self _ hnames]
    exact List.mem_append_left _ hp
  · exact absurd ((htargets p hp).plain.symm.trans hc) (by simp)

/-- The key of a metatag's condition is its name. -/
lemma key_eq_name (h : (parse raw kind source).result = .ok predicates) {p : Predicate} (hp : p ∈ predicates)
    {c : MetaCondition} (hc : p.condition = some c) : c.key = p.name := by
  obtain ⟨d, hd, hname, _⟩ := (allInterpreted_of_parse h p hp (by rw [Predicate.isMeta, hc]; rfl)).reads
  obtain rfl := Option.some.inj (hc.symm.trans hd)
  exact hname.symm

end TagSearch.Query
