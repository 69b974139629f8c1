import TagSearch.Proofs.Inquiry
import TagSearch.Proofs.Query.Parse

/-! What a query comes to, said of its tokens. The first metatag that fails decides; then the catalog may refuse a
look-up; and otherwise every token that counts has its own predicate, in order, with the targets of aliases behind. -/
namespace TagSearch.Query

variable {kind : Kind} {source : Source} {raw : String}

/-- The tokens with a key, without those whose key a token in front of them has. -/
def keptTokens (raw : String) (kind : Kind) : List Token :=
  ((tokenize raw).zipIdx.filter fun x : Token × Nat =>
    x.1.key kind ≠ "" ∧ ∀ u ∈ (tokenize raw).take x.2, u.key kind ≠ x.1.key kind).map Prod.fst

lemma keptTokens_eq (raw : String) (kind : Kind) :
    keptTokens raw kind = (firstOfKey (Token.key kind) (tokenize raw)).filter fun t => t.key kind ≠ "" := by
  rw [firstOfKey_eq_filter, List.filter_map, List.filter_filter, keptTokens]
  refine congrArg (List.map Prod.fst) (List.filter_congr fun x _ => ?_)
  rw [Bool.decide_and]
  rfl

lemma terms_eq_map (raw : String) (kind : Kind) : terms raw kind = (keptTokens raw kind).map Token.term := by
  rw [terms_eq, keptTokens_eq, List.filter_map]
  refine congrArg (List.map Token.term) (List.filter_congr fun t _ => ?_)
  by_cases h : t.key kind = "" <;> simp [h]

lemma keptTokens_pairwise (raw : String) (kind : Kind) :
    (keptTokens raw kind).Pairwise fun t u => t.key kind ≠ u.key kind := by
  rw [keptTokens_eq]
  exact (firstOfKey_pairwise _ _).filter _

/-- The token is a metatag that fails with an error. -/
def Token.Fails (kind : Kind) (source : Source) (t : Token) (e : SearchError) : Prop :=
  ∃ name comparator value, normalize t.text = .metatag name comparator value ∧
    (Metatag.interpret name comparator value t.negated kind source).result = .error e

/-- What a tag asks of the catalog; a metatag does not ask it for a name. -/
def Token.request? (t : Token) : Option Request :=
  match normalize t.text with
  | .tag name => some ⟨name, t.negated⟩
  | .metatag .. => none

/-- The predicate of a request among the rows that the catalog gives: the last row of that very name, or else an
unknown tag of that name. -/
def Request.predicate (rows : List Tag) (request : Request) : Predicate :=
  match (rows.filter fun tag => tag.name = request.name).getLast? with
  | some tag => .ofTag tag request.excluded
  | none => .unknown request.name request.excluded

/-- The predicate in the place of a token: of its name and sign, and resolved or interpreted. -/
structure Token.Gives (kind : Kind) (source : Source) (rows : List Tag) (t : Token) (p : Predicate) : Prop where
  name_eq : p.name = t.key kind
  excluded_eq : p.excluded = t.negated
  tag : ∀ name, normalize t.text = .tag name → p = Request.predicate rows ⟨name, t.negated⟩
  metatag : ∀ name comparator value, normalize t.text = .metatag name comparator value →
    (Metatag.interpret name comparator value t.negated kind source).result = .ok p

/-- The requests of the tags among some tokens. -/
def requests (tokens : List Token) : List Request := tokens.filterMap Token.request?

/-- The rows of some tags; nothing is asked for no tags. -/
def lookUp {κ : Type} (answer : List κ → Except StoreError (List Tag)) (keys : List κ) :
    Except StoreError (List Tag) :=
  if keys.isEmpty then .ok [] else answer keys

/-- The rows of the tags among some tokens. -/
def lookUpNames (source : Source) (tokens : List Token) : Except StoreError (List Tag) :=
  lookUp source.tagsByNames ((requests tokens).map Request.name)

/-- The predicates of the tags among some tokens. -/
def resolved (rows : List Tag) (tokens : List Token) : List Predicate :=
  (requests tokens).map (Request.predicate rows)

/-- The rows of the targets that the tags among some tokens want. -/
def lookUpTargets (source : Source) (rows : List Tag) (tokens : List Token) : Except StoreError (List Tag) :=
  lookUp source.tagsByIds ((wantedTargets (resolved rows tokens)).map Prod.fst)

/-- What the tokens that count come to. -/
inductive ComesTo (kind : Kind) (source : Source) (kept : List Token) : Except SearchError (List Predicate) → Prop
  /-- A metatag fails, and none in front of it does. -/
  | refused {before t after e} (place : kept = before ++ t :: after)
      (first : ∀ u ∈ before, ∀ e, ¬ u.Fails kind source e) (fails : t.Fails kind source e) :
      ComesTo kind source kept (.error e)
  /-- The catalog does not look up the names. -/
  | noNames {e} (meant : ∀ t ∈ kept, ∀ e, ¬ t.Fails kind source e) (names : lookUpNames source kept = .error e) :
      ComesTo kind source kept (.error (.store e))
  /-- The catalog does not look up the targets of aliases. -/
  | noTargets {rows e} (meant : ∀ t ∈ kept, ∀ e, ¬ t.Fails kind source e) (names : lookUpNames source kept = .ok rows)
      (targets : lookUpTargets source rows kept = .error e) : ComesTo kind source kept (.error (.store e))
  /-- Every token has its predicate, and behind them stands what the resolver appends to the tags. -/
  | parsed {rows targets placed} (meant : ∀ t ∈ kept, ∀ e, ¬ t.Fails kind source e)
      (names : lookUpNames source kept = .ok rows)
      (appended : (resolve (requests kept) source).result = .ok (resolved rows kept ++ targets))
      (placed_eq : List.Forall₂ (Token.Gives kind source rows) kept placed) :
      ComesTo kind source kept (.ok (placed ++ targets))

lemma matchRequests_eq_map {requests : List Request} (h : (requests.map Request.name).Nodup) (rows : List Tag) :
    matchRequests requests rows = requests.map (Request.predicate rows) := by
  induction requests generalizing rows with
  | nil => rfl
  | cons request rest ih =>
    rw [List.map_cons, List.nodup_cons] at h
    -- the rows that the first request takes have a name that no other request has
    have hothers : rest.map (Request.predicate (rows.filter fun tag => tag.name ≠ request.name)) =
        rest.map (Request.predicate rows) := by
      refine List.map_congr_left fun other hother => ?_
      have hne : other.name ≠ request.name := fun heq => h.1 (heq ▸ List.mem_map_of_mem hother)
      have hrows : (rows.filter fun tag => tag.name ≠ request.name).filter (fun tag => tag.name = other.name) =
          rows.filter fun tag => tag.name = other.name := by
        rw [List.filter_filter]
        refine List.filter_congr fun tag _ => ?_
        by_cases htag : tag.name = other.name <;> simp [htag, hne]
      rw [Request.predicate, Request.predicate, hrows]
    rw [matchRequests, takeRow, List.map_cons, Request.predicate]
    cases (rows.filter fun tag => tag.name = request.name).getLast? with
    | none => exact congrArg (List.cons _) ((ih h.2 _).trans hothers)
    | some tag => exact congrArg (List.cons _) ((ih h.2 _).trans hothers)

/-- The resolver looks up the names, then the targets that are wanted, and appends the targets that there are. -/
theorem result_resolve_of_nodup {requests : List Request} (h : (requests.map Request.name).Nodup)
    (source : Source) :
    (resolve requests source).result =
      match lookUp source.tagsByNames (requests.map Request.name) with
      | .error e => .error (.store e)
      | .ok rows =>
        match lookUp source.tagsByIds ((wantedTargets (requests.map (Request.predicate rows))).map Prod.fst) with
        | .error e => .error (.store e)
        | .ok targetRows =>
          .ok (requests.map (Request.predicate rows) ++
            foundTargets (wantedTargets (requests.map (Request.predicate rows))) targetRows) := by
  cases requests with
  | nil => rfl
  | cons request rest =>
    rw [resolve, if_neg (by simp), Inquiry.result_bind, lookUp, if_neg (by simp)]
    change (source.tagsByNames _).mapError SearchError.store >>= _ = _
    cases source.tagsByNames ((request :: rest).map Request.name) with
    | error e => rfl
    | ok rows =>
      simp only [Except.mapError, Inquiry.ok_bind, matchRequests_eq_map h]
      cases wantedTargets ((request :: rest).map (Request.predicate rows)) with
      | nil => exact congrArg Except.ok (List.append_nil _).symm
      | cons target targets =>
        rw [if_neg (by simp), Inquiry.result_bind, lookUp, if_neg (by simp)]
        change (source.tagsByIds _).mapError SearchError.store >>= _ = _
        cases source.tagsByIds ((target :: targets).map Prod.fst) <;> rfl

/-- The same of the tags among some tokens. -/
theorem result_resolve {tokens : List Token} (h : ((requests tokens).map Request.name).Nodup) (source : Source) :
    (resolve (requests tokens) source).result =
      match lookUpNames source tokens with
      | .error e => .error (.store e)
      | .ok rows =>
        match lookUpTargets source rows tokens with
        | .error e => .error (.store e)
        | .ok targetRows =>
          .ok (resolved rows tokens ++ foundTargets (wantedTargets (resolved rows tokens)) targetRows) :=
  result_resolve_of_nodup h source

/-- What stands in a slot, if the tags have the given predicates. -/
def Slot.fill (f : Request → Predicate) : Slot → Predicate
  | tag request => f request
  | metatag p => p

/-- Every slot gets what belongs to it. -/
lemma fillSlots_map (f : Request → Predicate) (slots : List Slot) (rest : List Predicate) :
    fillSlots slots ((slots.filterMap Slot.request?).map f ++ rest) = slots.map (Slot.fill f) ++ rest := by
  induction slots with
  | nil => rfl
  | cons slot slots ih =>
    cases slot with
    | tag request => exact congrArg (List.cons (f request)) ih
    | metatag p => exact congrArg (List.cons p) ih

lemma name_predicate (rows : List Tag) (request : Request) : (request.predicate rows).name = request.name := by
  rw [Request.predicate]
  split
  · rename_i tag htag
    exact of_decide_eq_true (List.mem_filter.mp (List.mem_of_getLast? htag)).2
  · rfl

lemma excluded_predicate (rows : List Tag) (request : Request) :
    (request.predicate rows).excluded = request.excluded := by
  rw [Request.predicate]
  split <;> rfl

/-- A token that does not fail has a slot, and its predicate stands there. -/
lemma exists_slot {t : Token} (h : ∀ e, ¬ t.Fails kind source e) :
    ∃ slot, (slotOf kind t.term source).result = .ok slot ∧ slot.request? = t.request? ∧
      ∀ rows, t.Gives kind source rows (slot.fill (Request.predicate rows)) := by
  cases hform : normalize t.text with
  | tag name =>
    refine ⟨.tag ⟨name, t.negated⟩, ?_, ?_, fun rows => ⟨?_, ?_, ?_, ?_⟩⟩
    · rw [Token.term, hform]
      rfl
    · rw [Token.request?, hform]
      rfl
    · rw [Token.key, hform]
      exact name_predicate rows _
    · exact excluded_predicate rows _
    · intro name' hname'
      obtain rfl := NormalForm.tag.inj (hform.symm.trans hname')
      rfl
    · intro _ _ _ hform'
      cases hform.symm.trans hform'
  | metatag name comparator value =>
    cases hp : (Metatag.interpret name comparator value t.negated kind source).result with
    | error e => exact absurd ⟨name, comparator, value, hform, hp⟩ (h e)
    | ok p =>
      obtain ⟨d, v, hd, _, _, hpredicate⟩ := Metatag.interpret_eq_ok hp
      refine ⟨.metatag p, ?_, ?_, fun rows => ⟨?_, congrArg Predicate.excluded hpredicate, ?_, ?_⟩⟩
      · rw [Token.term, hform, slotOf, Inquiry.result_bind, hp]
        rfl
      · rw [Token.request?, hform]
        rfl
      · rw [Token.key, hform, NormalForm.key, hd]
        exact congrArg (fun q : Predicate => q.name) hpredicate
      · intro name' hname'
        cases hform.symm.trans hname'
      · intro _ _ _ hform'
        cases hform.symm.trans hform'
        exact hp

lemma exists_slots {tokens : List Token} (h : ∀ t ∈ tokens, ∀ e, ¬ t.Fails kind source e) :
    ∃ slots, (slotsOf kind (tokens.map Token.term) source).result = .ok slots ∧
      slots.filterMap Slot.request? = requests tokens ∧
      ∀ rows, List.Forall₂ (Token.Gives kind source rows) tokens
        (slots.map (Slot.fill (Request.predicate rows))) := by
  induction tokens with
  | nil => exact ⟨[], rfl, rfl, fun _ => .nil⟩
  | cons t rest ih =>
    rw [List.forall_mem_cons] at h
    obtain ⟨slot, hslot, hrequest, hgives⟩ := exists_slot h.1
    obtain ⟨slots, hslots, hrequests, hrest⟩ := ih h.2
    refine ⟨slot :: slots, ?_, ?_, fun rows => .cons (hgives rows) (hrest rows)⟩
    · rw [List.map_cons, slotsOf, Inquiry.result_bind, hslot]
      change ((slotsOf kind (rest.map Token.term) >>= _) source).result = _
      rw [Inquiry.result_bind, hslots]
      rfl
    · rw [List.filterMap_cons, hrequest, hrequests, requests, requests, List.filterMap_cons]

/-- Where a metatag fails, one fails first. -/
lemma exists_first_failure {tokens : List Token} (h : ∃ t ∈ tokens, ∃ e, t.Fails kind source e) :
    ∃ before t after e, tokens = before ++ t :: after ∧ (∀ u ∈ before, ∀ e, ¬ u.Fails kind source e) ∧
      t.Fails kind source e := by
  induction tokens with
  | nil =>
    obtain ⟨t, ht, _⟩ := h
    exact absurd ht List.not_mem_nil
  | cons u rest ih =>
    by_cases hu : ∃ e, u.Fails kind source e
    · obtain ⟨e, hfail⟩ := hu
      exact ⟨[], u, rest, e, rfl, fun _ hu => absurd hu List.not_mem_nil, hfail⟩
    · obtain ⟨t, ht, hfail⟩ := h
      obtain rfl | ht := List.mem_cons.mp ht
      · exact absurd hfail hu
      · obtain ⟨before, t, after, e, rfl, hbefore, hfail⟩ := ih ⟨t, ht, hfail⟩
        exact ⟨u :: before, t, after, e, rfl, List.forall_mem_cons.mpr ⟨not_exists.mp hu, hbefore⟩, hfail⟩

/-- The first metatag that fails ends the inquiry. -/
lemma slotsOf_refused {before after : List Token} {t : Token} {e : SearchError}
    (hbefore : ∀ u ∈ before, ∀ e, ¬ u.Fails kind source e) (ht : t.Fails kind source e) :
    (slotsOf kind ((before ++ t :: after).map Token.term) source).result = .error e := by
  induction before with
  | nil =>
    obtain ⟨name, comparator, value, hform, hfail⟩ := ht
    rw [List.nil_append, List.map_cons, slotsOf, Inquiry.result_bind, Token.term, hform, slotOf, Inquiry.result_bind,
      hfail]
    rfl
  | cons u rest ih =>
    rw [List.forall_mem_cons] at hbefore
    obtain ⟨slot, hslot, _⟩ := exists_slot hbefore.1
    rw [List.cons_append, List.map_cons, slotsOf, Inquiry.result_bind, hslot]
    change ((slotsOf kind ((rest ++ t :: after).map Token.term) >>= _) source).result = _
    rw [Inquiry.result_bind, ih hbefore.2]
    rfl

lemma asksOnly_readValue (name : String) (kind : Metatag.ValueKind) (value : String) :
    Inquiry.AsksOnly (fun question => question.isTagLookup = false) (Metatag.readValue name kind value) source := by
  have hfault : ∀ fault o, Inquiry.AsksOnly (fun question => question.isTagLookup = false)
      (Metatag.orFault name value fault o) source := by
    intro fault o
    cases o with
    | some v => exact Inquiry.asksOnly_pure v
    | none => exact Inquiry.asksOnly_fail _
  cases kind with
  | userName =>
    refine Inquiry.AsksOnly.bind (Inquiry.asksOnly_ask ?_ _) fun _ => hfault _ _
    rfl
  | text | integer | flag | pattern => exact hfault _ _
  | similarity =>
    refine Inquiry.AsksOnly.bind ?_ fun _ => Inquiry.asksOnly_pure _
    rw [Metatag.readSimilarity]
    split
    · split
      · exact Inquiry.asksOnly_pure _
      · exact Inquiry.asksOnly_fail _
    · split
      · exact Inquiry.asksOnly_fail _
      · refine Inquiry.AsksOnly.bind (Inquiry.asksOnly_ask ?_ _) fun found => ?_
        · rfl
        · cases found with
          | some pair => exact Inquiry.asksOnly_pure pair
          | none => exact Inquiry.asksOnly_fail _

/-- Metatags look up users and hashes, but no tags. -/
lemma asksOnly_interpret (name : String) (written : Comparator) (value : String) (excluded : Bool) :
    Inquiry.AsksOnly (fun question => question.isTagLookup = false)
      (Metatag.interpret name written value excluded kind) source := by
  rw [Metatag.interpret]
  split
  · exact Inquiry.asksOnly_fail _
  · refine (asksOnly_readValue _ _ _).bind fun v => ?_
    exact (Inquiry.asksOnly_ofExcept _).bind fun c => Inquiry.asksOnly_pure _

lemma asksOnly_slotsOf (found : List Term) :
    Inquiry.AsksOnly (fun question => question.isTagLookup = false) (slotsOf kind found) source := by
  induction found with
  | nil => exact Inquiry.asksOnly_pure _
  | cons term rest ih =>
    refine Inquiry.AsksOnly.bind ?_ fun slot => ih.bind fun slots => Inquiry.asksOnly_pure _
    obtain ⟨form, excluded⟩ := term
    cases form with
    | tag name => exact Inquiry.asksOnly_pure _
    | metatag name comparator value =>
      exact (asksOnly_interpret name comparator value excluded).bind fun p => Inquiry.asksOnly_pure _

lemma requests_nodup {tokens : List Token} (h : tokens.Pairwise fun t u => t.key kind ≠ u.key kind) :
    ((requests tokens).map Request.name).Nodup := by
  -- a tag asks for its key, and a metatag for nothing
  have hsub : ((requests tokens).map Request.name).Sublist (tokens.map (Token.key kind)) := by
    clear h
    induction tokens with
    | nil => exact .slnil
    | cons t rest ih =>
      rw [requests, List.filterMap_cons, Token.request?]
      cases hform : normalize t.text with
      | tag name =>
        have hkey : t.key kind = name := by rw [Token.key, hform, NormalForm.key]
        rw [List.map_cons, List.map_cons, hkey]
        exact ih.cons_cons name
      | metatag name comparator value => exact ih.cons _
  exact (List.pairwise_map.mpr h).sublist hsub

lemma rightUnique_gives (rows : List Tag) : Relator.RightUnique (Token.Gives kind source rows) := by
  intro t p q hp hq
  cases hform : normalize t.text with
  | tag name => exact (hp.tag name hform).trans (hq.tag name hform).symm
  | metatag name comparator value =>
    exact Except.ok.inj ((hp.metatag _ _ _ hform).symm.trans (hq.metatag _ _ _ hform))

section Outcomes

variable {tokens : List Token}

lemma result_parse_of_meant (hterms : terms raw kind = tokens.map Token.term)
    (meant : ∀ t ∈ tokens, ∀ e, ¬ t.Fails kind source e) :
    ∃ slots, (parse raw kind source).result =
        ((resolve (requests tokens) source).result >>= fun found => .ok (fillSlots slots found)) ∧
      slots.filterMap Slot.request? = requests tokens ∧
      ∀ rows, List.Forall₂ (Token.Gives kind source rows) tokens (slots.map (Slot.fill (Request.predicate rows))) := by
  obtain ⟨slots, hslots, hrequests, hgives⟩ := exists_slots meant
  refine ⟨slots, ?_, hrequests, hgives⟩
  rw [parse, Inquiry.result_bind, hterms, hslots, Inquiry.ok_bind, Inquiry.result_bind, hrequests]
  rfl

/-- A query has the outcome that its tokens come to. -/
lemma result_of_comesTo (hterms : terms raw kind = tokens.map Token.term)
    (hnames : ((requests tokens).map Request.name).Nodup) {outcome : Except SearchError (List Predicate)}
    (h : ComesTo kind source tokens outcome) : (parse raw kind source).result = outcome := by
  cases h with
  | refused place first fails =>
    rw [parse, Inquiry.result_bind, hterms, place, slotsOf_refused first fails, Inquiry.error_bind]
  | noNames meant names =>
    obtain ⟨slots, hparse, _⟩ := result_parse_of_meant hterms meant
    simp only [hparse, result_resolve hnames, names, Inquiry.error_bind]
  | noTargets meant names targets =>
    obtain ⟨slots, hparse, _⟩ := result_parse_of_meant hterms meant
    simp only [hparse, result_resolve hnames, names, targets, Inquiry.error_bind]
  | @parsed rows targets placed meant names appended placed_eq =>
    obtain ⟨slots, hparse, hrequests, hgives⟩ := result_parse_of_meant hterms meant
    have hplaced : slots.map (Slot.fill (Request.predicate rows)) = placed :=
      List.right_unique_forall₂' (rightUnique_gives rows) (hgives rows) placed_eq
    rw [hparse, appended, Inquiry.ok_bind, resolved, ← hrequests, fillSlots_map, hplaced]

lemma exists_comesTo (hnames : ((requests tokens).map Request.name).Nodup) (kind : Kind) (source : Source) :
    ∃ outcome, ComesTo kind source tokens outcome := by
  by_cases meant : ∀ t ∈ tokens, ∀ e, ¬ t.Fails kind source e
  · obtain ⟨slots, _, _, hgives⟩ := exists_slots meant
    have hresolve := result_resolve hnames source
    cases hrows : lookUpNames source tokens with
    | error e => exact ⟨_, .noNames meant hrows⟩
    | ok rows =>
      cases htargets : lookUpTargets source rows tokens with
      | error e => exact ⟨_, .noTargets meant hrows htargets⟩
      | ok targetRows =>
        simp only [hrows, htargets] at hresolve
        exact ⟨_, .parsed meant hrows hresolve (hgives rows)⟩
  · simp only [not_forall, not_not, exists_prop] at meant
    obtain ⟨before, t, after, e, place, first, fails⟩ := exists_first_failure meant
    exact ⟨_, .refused place first fails⟩

end Outcomes

/-- Parsing does what its specification says, errors included: a query comes to exactly one outcome, and if one of its
metatags fails, the catalog is not asked for tags. -/
theorem parse_specified (raw : String) (kind : Kind) (source : Source) :
    (∀ outcome, (parse raw kind source).result = outcome ↔ ComesTo kind source (keptTokens raw kind) outcome) ∧
      ((∃ t ∈ keptTokens raw kind, ∃ e, t.Fails kind source e) →
        ∀ question ∈ (parse raw kind source).asked, question.isTagLookup = false) := by
  have hterms := terms_eq_map raw kind
  have hnames := requests_nodup (keptTokens_pairwise raw kind)
  have hiff : ∀ outcome, (parse raw kind source).result = outcome ↔
      ComesTo kind source (keptTokens raw kind) outcome := by
    intro outcome
    constructor
    · rintro rfl
      obtain ⟨outcome, h⟩ := exists_comesTo hnames kind source
      rwa [result_of_comesTo hterms hnames h]
    · exact result_of_comesTo hterms hnames
  refine ⟨hiff, ?_⟩
  intro hfailure question hasked
  obtain ⟨before, t, after, e, place, first, fails⟩ := exists_first_failure hfailure
  have hslots : (slotsOf kind (terms raw kind) source).result = .error e := by
    rw [hterms, place, slotsOf_refused first fails]
  rw [parse, Inquiry.asked_bind_error source _ hslots] at hasked
  exact asksOnly_slotsOf _ question hasked

end TagSearch.Query
