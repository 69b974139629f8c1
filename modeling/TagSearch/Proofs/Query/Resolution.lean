import Mathlib.Data.List.Nodup
import TagSearch.Proofs.Query.Lookup
import TagSearch.Proofs.Search.Found

/-! What requests for tags resolve to, said of a table of tags. A catalog looks up rows of the table and gives them in
any order. A request gets the tag that it names, and an alias brings the tag that it stands for along, unless a request
names that tag or one in front of it wants it. -/
namespace TagSearch

/-- Answers are the rows of a table that have one of the keys, in any order. -/
def AnswersFrom {κ : Type} (tags : List Tag) (key : Tag → κ) (answer : List κ → Except StoreError (List Tag)) : Prop :=
  ∀ keys rows, answer keys = .ok rows → ∀ tag, tag ∈ rows ↔ tag ∈ tags ∧ key tag ∈ keys

/-- A look-up in a table that takes up to so many keys. -/
structure AnswersUpTo {κ : Type} (limit : ℕ) (tags : List Tag) (key : Tag → κ)
    (answer : List κ → Except StoreError (List Tag)) : Prop where
  rows : AnswersFrom tags key answer
  accepts : ∀ keys, keys.length ≤ limit → ∃ rows, answer keys = .ok rows

/-- A source that looks up tags in a table, up to so many at once. Names and ids tell the tags apart. -/
structure Source.LooksUp (source : Source) (tags : List Tag) (limit : ℕ) : Prop where
  names : (tags.map Tag.name).Nodup
  ids : (tags.map Tag.id).Nodup
  byNames : AnswersUpTo limit tags Tag.name source.tagsByNames
  byIds : AnswersUpTo limit tags Tag.id source.tagsByIds

namespace Query
open Sql

variable {source : Source} {tags rows : List Tag} {tag : Tag} {requests : List Request} {request : Request}
  {p : Predicate} {id : UInt64} {excluded : Bool} {limit : ℕ}

section Rows

variable {κ : Type} [DecidableEq κ] {key : Tag → κ} {k : κ} {keys : List κ}

/-- Where a key tells the rows apart, the row of a key is the tag that has it. -/
lemma takeRow_eq_some (h : ∀ a ∈ rows, ∀ b ∈ rows, key a = key b → a = b) :
    (takeRow key k rows).1 = some tag ↔ tag ∈ rows ∧ key tag = k := by
  constructor
  · intro hrow
    obtain ⟨hmem, hk⟩ := List.mem_filter.mp (List.mem_of_getLast? hrow)
    exact ⟨hmem, of_decide_eq_true hk⟩
  · rintro ⟨hmem, rfl⟩
    cases hlast : (takeRow key (key tag) rows).1 with
    | none =>
      rw [takeRow, List.getLast?_eq_none_iff, List.filter_eq_nil_iff] at hlast
      exact absurd (decide_eq_true rfl) (hlast tag hmem)
    | some other =>
      obtain ⟨hother, hk⟩ := List.mem_filter.mp (List.mem_of_getLast? hlast)
      rw [h other hother tag hmem (of_decide_eq_true hk)]

lemma takeRow_table (h : (tags.map key).Nodup) : (takeRow key k tags).1 = some tag ↔ tag ∈ tags ∧ key tag = k :=
  takeRow_eq_some fun _ ha _ hb => List.inj_on_of_nodup_map h ha hb

/-- The rows that answer a look-up are as good as the whole table. -/
lemma takeRow_answer (h : (tags.map key).Nodup) (hrows : ∀ tag, tag ∈ rows ↔ tag ∈ tags ∧ key tag ∈ keys)
    (hk : k ∈ keys) : (takeRow key k rows).1 = (takeRow key k tags).1 := by
  have hinj : ∀ a ∈ rows, ∀ b ∈ rows, key a = key b → a = b := fun a ha b hb =>
    List.inj_on_of_nodup_map h ((hrows a).mp ha).1 ((hrows b).mp hb).1
  refine Option.ext fun tag => ?_
  rw [takeRow_eq_some hinj, takeRow_table h, hrows]
  constructor
  · rintro ⟨⟨hmem, _⟩, hkey⟩
    exact ⟨hmem, hkey⟩
  · rintro ⟨hmem, rfl⟩
    exact ⟨⟨hmem, hk⟩, rfl⟩

end Rows

/-- The request names a tag of the table. -/
def Request.Names (tags : List Tag) (request : Request) (tag : Tag) : Prop := tag ∈ tags ∧ tag.name = request.name

/-- What a request is answered with: the tag that it names, with its sign, or an unknown tag of that name. -/
inductive Request.Answer (tags : List Tag) (request : Request) : Predicate → Prop
  | known {tag : Tag} (names : request.Names tags tag) : Answer tags request (.ofTag tag request.excluded)
  | unknown (names : ∀ tag, ¬ request.Names tags tag) : Answer tags request (.unknown request.name request.excluded)

/-- The request names an alias for a tag of the given id. -/
def Request.PointsTo (tags : List Tag) (request : Request) (id : UInt64) : Prop :=
  id ≠ 0 ∧ ∃ tag, request.Names tags tag ∧ tag.isAlias = true ∧ tag.aliased = id

/-- The request at a place is the first one that names an alias for a tag of the given id, and no request names that
tag itself. -/
structure FirstWants (tags : List Tag) (requests : List Request) (place : ℕ) (request : Request) (id : UInt64) :
    Prop where
  getElem : requests[place]? = some request
  points : request.PointsTo tags id
  first : ∀ earlier ∈ requests.take place, ¬ earlier.PointsTo tags id
  unnamed : ∀ other ∈ requests, ∀ tag, other.Names tags tag → tag.id ≠ id

lemma Request.Names.unique (h : (tags.map Tag.name).Nodup) {other : Tag} (htag : request.Names tags tag)
    (hother : request.Names tags other) : tag = other :=
  List.inj_on_of_nodup_map h htag.1 hother.1 (htag.2.trans hother.2.symm)

/-- The predicate of a request, by the row that there is for it. -/
lemma predicate_eq_takeRow (rows : List Tag) (request : Request) :
    request.predicate rows = match (takeRow Tag.name request.name rows).1 with
      | some tag => .ofTag tag request.excluded
      | none => .unknown request.name request.excluded := rfl

lemma predicate_of_names (h : (tags.map Tag.name).Nodup) (htag : request.Names tags tag) :
    request.predicate tags = .ofTag tag request.excluded := by
  rw [predicate_eq_takeRow, (takeRow_table h).mpr htag]

lemma predicate_of_not_names (h : ∀ tag, ¬ request.Names tags tag) :
    request.predicate tags = .unknown request.name request.excluded := by
  have hnil : (tags.filter fun tag => tag.name = request.name) = [] :=
    List.filter_eq_nil_iff.mpr fun tag htag heq => h tag ⟨htag, of_decide_eq_true heq⟩
  rw [Request.predicate, hnil]
  rfl

/-- A request has the tag that it names, or an unknown one. -/
lemma predicate_cases (h : (tags.map Tag.name).Nodup) (request : Request) :
    (∃ tag, request.Names tags tag ∧ request.predicate tags = .ofTag tag request.excluded) ∨
      ((∀ tag, ¬ request.Names tags tag) ∧ request.predicate tags = .unknown request.name request.excluded) := by
  by_cases hnames : ∃ tag, request.Names tags tag
  · obtain ⟨tag, htag⟩ := hnames
    exact .inl ⟨tag, htag, predicate_of_names h htag⟩
  · rw [not_exists] at hnames
    exact .inr ⟨hnames, predicate_of_not_names hnames⟩

lemma answer_predicate (h : (tags.map Tag.name).Nodup) (request : Request) :
    request.Answer tags (request.predicate tags) := by
  rcases predicate_cases h request with ⟨tag, htag, hp⟩ | ⟨hnames, hp⟩
  · rw [hp]
    exact .known htag
  · rw [hp]
    exact .unknown hnames

/-- A request that points to a tag has a predicate that does. -/
lemma pointsTo_iff (h : (tags.map Tag.name).Nodup) :
    request.PointsTo tags id ↔
      pointsElsewhere (request.predicate tags) = true ∧ (request.predicate tags).aliased = id := by
  rcases predicate_cases h request with ⟨tag, htag, hp⟩ | ⟨hnames, hp⟩
  · rw [hp]
    constructor
    · rintro ⟨h0, other, hother, halias, rfl⟩
      obtain rfl := htag.unique h hother
      exact ⟨by simp [pointsElsewhere, Predicate.ofTag, halias, h0], rfl⟩
    · rintro ⟨hpoints, rfl⟩
      simp only [pointsElsewhere, Bool.and_eq_true, decide_eq_true_eq] at hpoints
      exact ⟨hpoints.2, tag, htag, hpoints.1.2, rfl⟩
  · rw [hp]
    constructor
    · rintro ⟨_, other, hother, _⟩
      exact absurd hother (hnames other)
    · rintro ⟨hpoints, _⟩
      cases hpoints

/-- The ids of the tags that requests name. -/
def namedIds (tags : List Tag) (requests : List Request) : List UInt64 :=
  ((requests.map (Request.predicate tags)).filter fun p => p.known).map fun p => p.id

lemma mem_namedIds (h : (tags.map Tag.name).Nodup) :
    id ∈ namedIds tags requests ↔ ∃ request ∈ requests, ∃ tag, request.Names tags tag ∧ tag.id = id := by
  simp only [namedIds, List.mem_map, List.mem_filter]
  constructor
  · rintro ⟨p, ⟨⟨request, hrequest, rfl⟩, hknown⟩, rfl⟩
    rcases predicate_cases h request with ⟨tag, htag, hp⟩ | ⟨_, hp⟩
    · exact ⟨request, hrequest, tag, htag, by rw [hp]; rfl⟩
    · rw [hp] at hknown
      cases hknown
  · rintro ⟨request, hrequest, tag, htag, rfl⟩
    refine ⟨_, ⟨⟨request, hrequest, predicate_of_names h htag⟩, rfl⟩, rfl⟩

/-- What a request wants of a table, where the tags of the given ids are there already: a tag, with the sign of the
request. -/
def wish (tags : List Tag) (present : List UInt64) (request : Request) : Option (UInt64 × Bool) :=
  let p := request.predicate tags
  if pointsElsewhere p = true ∧ p.aliased ∉ present then some (p.aliased, request.excluded) else none

lemma wish_eq_some (h : (tags.map Tag.name).Nodup) {present : List UInt64} :
    wish tags present request = some (id, excluded) ↔
      request.PointsTo tags id ∧ id ∉ present ∧ request.excluded = excluded := by
  rw [wish, pointsTo_iff h]
  constructor
  · intro hwish
    simp only [Option.ite_none_right_eq_some, Option.some.injEq, Prod.mk.injEq] at hwish
    obtain ⟨⟨hpoints, habsent⟩, rfl, rfl⟩ := hwish
    exact ⟨⟨hpoints, rfl⟩, habsent, rfl⟩
  · rintro ⟨⟨hpoints, rfl⟩, habsent, rfl⟩
    exact if_pos ⟨hpoints, habsent⟩

/-- The targets that requests want of a table. -/
def wantedOf (tags : List Tag) (requests : List Request) : List (UInt64 × Bool) :=
  wantedTargets (requests.map (Request.predicate tags))

/-- The wishes of the requests, the first one for each tag. -/
lemma wantedOf_eq_wishes :
    wantedOf tags requests = firstOfKey Prod.fst (requests.filterMap (wish tags (namedIds tags requests))) := by
  rw [wantedOf, wantedTargets]
  refine congrArg (firstOfKey Prod.fst) ?_
  change ((requests.map (Request.predicate tags)).filter pointsElsewhere |>.map fun p => (p.aliased, p.excluded)).filter
    (fun target => !(namedIds tags requests).contains target.1) = _
  generalize namedIds tags requests = present
  induction requests with
  | nil => rfl
  | cons request rest ih =>
    have hsign := excluded_predicate tags request
    by_cases hpoints : pointsElsewhere (request.predicate tags) = true
    · by_cases habsent : (request.predicate tags).aliased ∈ present
      · have hwish : wish tags present request = none := if_neg fun h => h.2 habsent
        rw [List.filterMap_cons_none hwish, ← ih]
        simp [hpoints, habsent]
      · have hwish : wish tags present request = some ((request.predicate tags).aliased, request.excluded) :=
          if_pos ⟨hpoints, habsent⟩
        rw [List.filterMap_cons_some hwish, ← ih]
        simp [hpoints, habsent, hsign]
    · have hwish : wish tags present request = none := if_neg fun h => hpoints h.1
      rw [List.filterMap_cons_none hwish, ← ih]
      simp [hpoints]

/-- The first wish for a tag is that of the request that is the first to point to it. -/
lemma firstGives_wish (h : (tags.map Tag.name).Nodup) {place : ℕ} :
    FirstGives Prod.fst (wish tags (namedIds tags requests)) requests place request (id, excluded) ↔
      FirstWants tags requests place request id ∧ request.excluded = excluded := by
  constructor
  · rintro ⟨hget, hgives, hfirst⟩
    rw [wish_eq_some h, mem_namedIds h] at hgives
    obtain ⟨hpoints, habsent, hexcluded⟩ := hgives
    refine ⟨⟨hget, hpoints, fun earlier hearlier hpoints' => ?_, fun other hother tag htag hid =>
      habsent ⟨other, hother, tag, htag, hid⟩⟩, hexcluded⟩
    refine hfirst earlier hearlier (id, earlier.excluded) ?_ rfl
    rw [wish_eq_some h, mem_namedIds h]
    exact ⟨hpoints', habsent, rfl⟩
  · rintro ⟨⟨hget, hpoints, hfirst, hunnamed⟩, rfl⟩
    have habsent : ¬ ∃ request ∈ requests, ∃ tag, request.Names tags tag ∧ tag.id = id :=
      fun ⟨other, hother, tag, htag, hid⟩ => hunnamed other hother tag htag hid
    refine ⟨hget, ?_, fun earlier hearlier target htarget hid => ?_⟩
    · rw [wish_eq_some h, mem_namedIds h]
      exact ⟨hpoints, habsent, rfl⟩
    · obtain ⟨other, sign⟩ := target
      obtain rfl : other = id := hid
      rw [wish_eq_some h] at htarget
      exact hfirst earlier hearlier htarget.1

/-- A target is wanted with the sign of the request that is the first one to want it. -/
lemma mem_wantedOf (h : (tags.map Tag.name).Nodup) :
    (id, excluded) ∈ wantedOf tags requests ↔
      ∃ place request, FirstWants tags requests place request id ∧ request.excluded = excluded := by
  rw [wantedOf_eq_wishes, mem_firstOfKey_filterMap]
  exact exists_congr fun place => exists_congr fun request => firstGives_wish h

/-- Only one request is the first to want a tag. -/
lemma FirstWants.unique {place place' : ℕ} {other : Request} (h : FirstWants tags requests place request id)
    (hother : FirstWants tags requests place' other id) : place = place' ∧ request = other := by
  have hle : ∀ {m n : ℕ} {a b : Request}, FirstWants tags requests m a id → FirstWants tags requests n b id →
      n ≤ m := by
    intro m n a b ha hb
    by_contra hlt
    have hearlier : (requests.take n)[m]? = some a := (List.getElem?_take_of_lt (Nat.not_le.mp hlt)).trans ha.getElem
    exact hb.first a (List.mem_of_getElem? hearlier) ha.points
  obtain rfl := Nat.le_antisymm (hle hother h) (hle h hother)
  exact ⟨rfl, Option.some.inj (h.getElem.symm.trans hother.getElem)⟩

/-- The targets stand in the order in which they are first wanted. -/
lemma wantedOf_pairwise (h : (tags.map Tag.name).Nodup) :
    (wantedOf tags requests).Pairwise fun target other =>
      ∀ place request place' request', FirstWants tags requests place request target.1 →
        FirstWants tags requests place' request' other.1 → place < place' := by
  have hgives : ∀ {target : UInt64 × Bool} {place : ℕ} {request : Request}, target ∈ wantedOf tags requests →
      FirstWants tags requests place request target.1 →
      FirstGives Prod.fst (wish tags (namedIds tags requests)) requests place request target := by
    intro target place request hmem hwants
    obtain ⟨place', request', hwants', hsign⟩ := (mem_wantedOf h).mp hmem
    obtain ⟨rfl, rfl⟩ := hwants.unique hwants'
    exact (firstGives_wish h).mpr ⟨hwants, hsign⟩
  rw [wantedOf_eq_wishes] at hgives ⊢
  exact (firstOfKey_filterMap_pairwise requests).imp_of_mem fun htarget hother hlt place request place' request'
    hwants hwants' => hlt place request place' request' (hgives htarget hwants) (hgives hother hwants')

lemma wantedTargets_nodup (found : List Predicate) : ((wantedTargets found).map Prod.fst).Nodup := by
  rw [List.Nodup, List.pairwise_map]
  exact firstOfKey_pairwise _ _

lemma answersFrom_lookUp {κ : Type} {key : Tag → κ} {answer : List κ → Except StoreError (List Tag)}
    (h : AnswersFrom tags key answer) : AnswersFrom tags key (lookUp answer) := by
  intro keys rows hrows tag
  rw [lookUp] at hrows
  split at hrows
  · rename_i hempty
    cases hrows
    simp [List.isEmpty_iff.mp hempty]
  · exact h keys rows hrows tag

/-- The names are asked for at once, and then the targets that are wanted. Nothing is asked for where there is nothing
to look up. -/
theorem asked_resolve (h : (requests.map Request.name).Nodup) (source : Source) :
    (resolve requests source).asked =
      if requests = [] then []
      else .tagsByNames (requests.map Request.name) ::
        match source.tagsByNames (requests.map Request.name) with
        | .error _ => []
        | .ok rows =>
          let wanted := (wantedTargets (requests.map (Request.predicate rows))).map Prod.fst
          if wanted = [] then [] else [.tagsByIds wanted] := by
  cases requests with
  | nil => rfl
  | cons request rest =>
    rw [resolve, if_neg (by simp), if_neg (by simp)]
    cases hrows : source.tagsByNames ((request :: rest).map Request.name) with
    | error e =>
      rw [@Inquiry.asked_bind_error _ _ source _ (.store e)]
      · rfl
      · rw [Inquiry.tagsByNames, Inquiry.ask, hrows]
        rfl
    | ok rows =>
      rw [@Inquiry.asked_bind_ok _ _ source _ rows]
      · simp only [matchRequests_eq_map h]
        cases wantedTargets ((request :: rest).map (Request.predicate rows)) with
        | nil => rfl
        | cons target targets =>
          rw [if_neg (by simp), if_neg (by simp), Inquiry.asked_bind_pure]
          rfl
      · rw [Inquiry.tagsByNames, Inquiry.ask, hrows]
        rfl

lemma predicate_answer {names : List String} (h : (tags.map Tag.name).Nodup)
    (hrows : ∀ tag, tag ∈ rows ↔ tag ∈ tags ∧ tag.name ∈ names) (hname : request.name ∈ names) :
    request.predicate rows = request.predicate tags := by
  rw [predicate_eq_takeRow, predicate_eq_takeRow, takeRow_answer h hrows hname]

lemma foundTargets_answer {wanted : List (UInt64 × Bool)} (h : (tags.map Tag.id).Nodup)
    (hrows : ∀ tag, tag ∈ rows ↔ tag ∈ tags ∧ tag.id ∈ wanted.map Prod.fst) :
    foundTargets wanted rows = foundTargets wanted tags := by
  refine List.filterMap_congr fun target htarget => ?_
  simp only [takeRow_answer h hrows (List.mem_map_of_mem htarget)]

lemma lookUp_answer {κ : Type} {key : Tag → κ} {answer : List κ → Except StoreError (List Tag)} {keys : List κ}
    (h : AnswersUpTo limit tags key answer) (hcount : keys.length ≤ limit) :
    ∃ rows, lookUp answer keys = .ok rows ∧ ∀ tag, tag ∈ rows ↔ tag ∈ tags ∧ key tag ∈ keys := by
  have haccepts : ∃ rows, lookUp answer keys = .ok rows := by
    cases keys with
    | nil => exact ⟨[], rfl⟩
    | cons k rest => exact h.accepts (k :: rest) hcount
  obtain ⟨rows, hrows⟩ := haccepts
  exact ⟨rows, hrows, answersFrom_lookUp h.rows _ _ hrows⟩

lemma map_predicate_answer (h : (tags.map Tag.name).Nodup)
    (hrows : ∀ tag, tag ∈ rows ↔ tag ∈ tags ∧ tag.name ∈ requests.map Request.name) :
    requests.map (Request.predicate rows) = requests.map (Request.predicate tags) :=
  List.map_congr_left fun _ hrequest => predicate_answer h hrows (List.mem_map_of_mem hrequest)

/-- The predicates that are brought along: the targets that the table has. -/
def broughtAlong (tags : List Tag) (requests : List Request) : List Predicate :=
  foundTargets (wantedOf tags requests) tags

/-- However the rows are ordered, the requests resolve as in the table. -/
lemma resolve_table (h : source.LooksUp tags requests.length) (hnames : (requests.map Request.name).Nodup) :
    (resolve requests source).result =
        .ok (requests.map (Request.predicate tags) ++ broughtAlong tags requests) ∧
      (resolve requests source).asked =
        if requests = [] then []
        else .tagsByNames (requests.map Request.name) ::
          if (wantedOf tags requests).map Prod.fst = [] then []
          else [.tagsByIds ((wantedOf tags requests).map Prod.fst)] := by
  obtain ⟨rows, hanswer, hrows⟩ := lookUp_answer h.byNames (Nat.le_of_eq (List.length_map Request.name))
  have hfound := map_predicate_answer h.names hrows
  have hwanted : wantedTargets (requests.map (Request.predicate tags)) = wantedOf tags requests := rfl
  have hcount : ((wantedOf tags requests).map Prod.fst).length ≤ requests.length := by
    rw [List.length_map]
    exact Nat.le_trans (length_wantedTargets _) (Nat.le_of_eq (List.length_map _))
  obtain ⟨targetRows, htargets, htargetRows⟩ := lookUp_answer h.byIds hcount
  constructor
  · rw [result_resolve_of_nodup hnames, hanswer]
    simp only [hfound, hwanted, htargets, foundTargets_answer h.ids htargetRows, broughtAlong]
  · rw [asked_resolve hnames]
    cases requests with
    | nil => rfl
    | cons request rest =>
      rw [lookUp, if_neg (by simp)] at hanswer
      simp only [hanswer, hfound, hwanted]

lemma mem_broughtAlong (hnames : (tags.map Tag.name).Nodup) (hids : (tags.map Tag.id).Nodup) :
    p ∈ broughtAlong tags requests ↔
      ∃ tag ∈ tags, ∃ place request, FirstWants tags requests place request tag.id ∧
        p = .ofTag tag request.excluded := by
  rw [broughtAlong, mem_foundTargets]
  constructor
  · rintro ⟨⟨id, excluded⟩, htarget, tag, htag, rfl⟩
    obtain ⟨hmem, rfl⟩ := (takeRow_table hids).mp htag
    obtain ⟨place, request, hwants, rfl⟩ := (mem_wantedOf hnames).mp htarget
    exact ⟨tag, hmem, place, request, hwants, rfl⟩
  · rintro ⟨tag, hmem, place, request, hwants, rfl⟩
    exact ⟨(tag.id, request.excluded), (mem_wantedOf hnames).mpr ⟨place, request, hwants, rfl⟩, tag,
      (takeRow_table hids).mpr ⟨hmem, rfl⟩, rfl⟩

lemma broughtAlong_pairwise (hnames : (tags.map Tag.name).Nodup) (hids : (tags.map Tag.id).Nodup) :
    (broughtAlong tags requests).Pairwise fun p q => ∀ place request place' request',
      FirstWants tags requests place request p.id → FirstWants tags requests place' request' q.id →
        place < place' := by
  refine List.pairwise_filterMap.mpr ((wantedOf_pairwise hnames).imp ?_)
  rintro ⟨id, excluded⟩ ⟨id', excluded'⟩ hlt p hp q hq
  obtain ⟨tag, htag, rfl⟩ := Option.map_eq_some_iff.mp hp
  obtain ⟨tag', htag', rfl⟩ := Option.map_eq_some_iff.mp hq
  obtain ⟨_, rfl⟩ := (takeRow_table hids).mp htag
  obtain ⟨_, rfl⟩ := (takeRow_table hids).mp htag'
  exact hlt

/-- How a list of requests resolves in a table: `named` answers the requests, and `targets` stand behind. -/
structure IsResolution (tags : List Tag) (requests : List Request) (named targets : List Predicate) : Prop where
  answers : List.Forall₂ (Request.Answer tags) requests named
  /-- A target is a tag of the table, with the sign of the request that is the first one to want it. -/
  mem_targets : ∀ p, p ∈ targets ↔ ∃ tag ∈ tags, ∃ place request, FirstWants tags requests place request tag.id ∧
    p = .ofTag tag request.excluded
  /-- Targets stand in the order in which they are first wanted. -/
  ordered : targets.Pairwise fun p q => ∀ place request place' request',
    FirstWants tags requests place request p.id → FirstWants tags requests place' request' q.id → place < place'
  names : ((named ++ targets).map fun p => p.name).Nodup
  ids : (((named ++ targets).filter fun p => p.known).map fun p => p.id).Nodup

/-- Targets are not wanted twice. -/
lemma broughtAlong_ids_nodup (hnames : (tags.map Tag.name).Nodup) (hids : (tags.map Tag.id).Nodup) :
    ((broughtAlong tags requests).map fun p => p.id).Nodup := by
  rw [List.Nodup, List.pairwise_map]
  refine (broughtAlong_pairwise hnames hids).imp_of_mem fun {p q} hp _ hlt heq => ?_
  obtain ⟨tag, _, place, request, hwants, rfl⟩ := (mem_broughtAlong hnames hids).mp hp
  exact absurd (hlt place request place request hwants (heq ▸ hwants)) (Nat.lt_irrefl place)

lemma broughtAlong_names_nodup (hnames : (tags.map Tag.name).Nodup) (hids : (tags.map Tag.id).Nodup) :
    ((broughtAlong tags requests).map fun p => p.name).Nodup := by
  have hpairwise := @broughtAlong_ids_nodup tags requests hnames hids
  rw [List.Nodup, List.pairwise_map] at hpairwise ⊢
  refine hpairwise.imp_of_mem fun {p q} hp hq hne heq => ?_
  obtain ⟨tag, htag, _, _, _, rfl⟩ := (mem_broughtAlong hnames hids).mp hp
  obtain ⟨tag', htag', _, _, _, rfl⟩ := (mem_broughtAlong hnames hids).mp hq
  obtain rfl : tag = tag' := List.inj_on_of_nodup_map hnames htag htag' heq
  exact hne rfl

/-- Requests of different names name tags of different ids. -/
lemma namedIds_nodup (hnames : (tags.map Tag.name).Nodup) (hids : (tags.map Tag.id).Nodup)
    (hrequests : (requests.map Request.name).Nodup) : (namedIds tags requests).Nodup := by
  rw [List.Nodup, List.pairwise_map] at hrequests
  rw [namedIds, List.Nodup, List.pairwise_map, List.pairwise_filter, List.pairwise_map]
  refine hrequests.imp fun {request other} hne hknown hknown' heq => ?_
  rcases predicate_cases hnames request with ⟨tag, htag, hp⟩ | ⟨_, hp⟩
  · rcases predicate_cases hnames other with ⟨tag', htag', hp'⟩ | ⟨_, hp'⟩
    · rw [hp, hp'] at heq
      obtain rfl : tag = tag' := List.inj_on_of_nodup_map hids htag.1 htag'.1 heq
      exact hne (htag.2.symm.trans htag'.2)
    · rw [hp'] at hknown'
      cases hknown'
  · rw [hp] at hknown
    cases hknown

lemma isResolution_table (hnames : (tags.map Tag.name).Nodup) (hids : (tags.map Tag.id).Nodup)
    (hrequests : (requests.map Request.name).Nodup) :
    IsResolution tags requests (requests.map (Request.predicate tags)) (broughtAlong tags requests) where
  answers := List.forall₂_map_right_iff.mpr (List.forall₂_same.mpr fun request _ => answer_predicate hnames request)
  mem_targets _ := mem_broughtAlong hnames hids
  ordered := broughtAlong_pairwise hnames hids
  names := by
    have hnamed : (requests.map (Request.predicate tags)).map (fun p => p.name) = requests.map Request.name := by
      rw [List.map_map]
      exact List.map_congr_left fun request _ => name_predicate tags request
    rw [List.map_append, hnamed, List.nodup_append]
    refine ⟨hrequests, broughtAlong_names_nodup hnames hids, fun name hname other hother heq => ?_⟩
    obtain ⟨request, hrequest, rfl⟩ := List.mem_map.mp hname
    obtain ⟨p, hp, rfl⟩ := List.mem_map.mp hother
    obtain ⟨tag, htag, _, _, hwants, rfl⟩ := (mem_broughtAlong hnames hids).mp hp
    exact hwants.unnamed request hrequest tag ⟨htag, heq.symm⟩ rfl
  ids := by
    rw [List.filter_append, List.map_append, List.nodup_append]
    refine ⟨namedIds_nodup hnames hids hrequests,
      (broughtAlong_ids_nodup hnames hids).sublist (List.filter_sublist.map _), fun id hid other hother heq => ?_⟩
    obtain ⟨request, hrequest, tag, hnamed, rfl⟩ := (mem_namedIds hnames).mp hid
    obtain ⟨p, hp, rfl⟩ := List.mem_map.mp hother
    obtain ⟨tag', _, _, _, hwants, rfl⟩ := (mem_broughtAlong hnames hids).mp (List.mem_filter.mp hp).1
    exact hwants.unnamed request hrequest tag hnamed heq

/-- Resolving does what its specification says, in whatever order the rows come. The catalog is asked at most twice: for
the names, and for the ids of the targets that are wanted. Catalogs of one table resolve alike. -/
theorem resolve_specified (h : source.LooksUp tags requests.length) (hrequests : (requests.map Request.name).Nodup) :
    ∃ named targets wanted,
      (resolve requests source).result = .ok (named ++ targets) ∧
      IsResolution tags requests named targets ∧
      wanted.Nodup ∧ (∀ id, id ∈ wanted ↔ ∃ place request, FirstWants tags requests place request id) ∧
      (resolve requests source).asked =
        (if requests = [] then []
        else .tagsByNames (requests.map Request.name) :: if wanted = [] then [] else [.tagsByIds wanted]) ∧
      ∀ other : Source, other.LooksUp tags requests.length →
        (resolve requests other).result = (resolve requests source).result ∧
        (resolve requests other).asked = (resolve requests source).asked := by
  obtain ⟨hresult, hasked⟩ := resolve_table h hrequests
  refine ⟨_, _, (wantedOf tags requests).map Prod.fst, hresult,
    isResolution_table h.names h.ids hrequests, wantedTargets_nodup _, fun id => ?_, hasked, fun other hother => ?_⟩
  · rw [List.mem_map]
    constructor
    · rintro ⟨⟨id, excluded⟩, htarget, rfl⟩
      obtain ⟨place, request, hwants, _⟩ := (mem_wantedOf h.names).mp htarget
      exact ⟨place, request, hwants⟩
    · rintro ⟨place, request, hwants⟩
      exact ⟨(id, request.excluded), (mem_wantedOf h.names).mpr ⟨place, request, hwants, rfl⟩, rfl⟩
  · obtain ⟨hresult', hasked'⟩ := resolve_table hother hrequests
    exact ⟨hresult'.trans hresult.symm, hasked'.trans hasked.symm⟩

lemma answersFrom_findTags {κ : Type} [DecidableEq κ] (s : Store) (column : String) (key : Tag → κ) :
    AnswersFrom s.tags key fun keys =>
      (Database.ready s).findTags column keys.length fun tag => keys.contains (key tag) := by
  intro keys rows h tag
  simp only [Database.findTags] at h
  split at h
  · rename_i hempty
    cases h
    simp [List.length_eq_zero_iff.mp hempty]
  · split at h
    · cases h
    · cases h
      simp

lemma answersUpTo_findTags {s : Store} {κ : Type} [DecidableEq κ] {column : String}
    (hcolumn : (Fragment.plain column).IsBound) (h : limit ≤ valueLimit) (key : Tag → κ) :
    AnswersUpTo limit s.tags key fun keys =>
      (Database.ready s).findTags column keys.length fun tag => keys.contains (key tag) where
  rows := answersFrom_findTags s column key
  accepts keys hcount := by
    cases keys with
    | nil => exact ⟨[], rfl⟩
    | cons k rest => exact ⟨_, findTags_ready hcolumn (by simp) (Nat.le_trans hcount h) _⟩

/-- A catalog looks up the rows of its tags, as many at once as the engine binds values. -/
lemma looksUp_ready {s : Store} (hs : s.Consistent) (h : limit ≤ valueLimit) :
    (Database.ready s).source.LooksUp s.tags limit := by
  have hname : (Fragment.plain "name").IsBound := Fragment.isBound_plain rfl
  have hid : (Fragment.plain "id").IsBound := Fragment.isBound_plain rfl
  exact ⟨hs.tagNames, hs.tagIds.nodup, answersUpTo_findTags hname h Tag.name, answersUpTo_findTags hid h Tag.id⟩

/-- In the sample, an excluded alias brings its tag along, excluded, behind a name that the catalog does not know. -/
theorem resolve_of_sample :
    ∃ named targets,
      named ++ targets = [.ofTag ⟨2, "heavens", "", 1, none, 1, true⟩ true, .unknown "mist" false,
        .ofTag ⟨1, "sky", "", 1, none, 0, false⟩ true] ∧
      IsResolution Store.sample.tags [⟨"heavens", true⟩, ⟨"mist", false⟩] named targets := by
  have hs : Store.Consistent .sample := (Store.Reachable.empty.run _).consistent
  have hlooks := @looksUp_ready 2 .sample hs (by decide)
  have hvalue : [⟨"heavens", true⟩, ⟨"mist", false⟩].map (Request.predicate Store.sample.tags) ++
      broughtAlong Store.sample.tags [⟨"heavens", true⟩, ⟨"mist", false⟩] =
        [.ofTag ⟨2, "heavens", "", 1, none, 1, true⟩ true, .unknown "mist" false,
          .ofTag ⟨1, "sky", "", 1, none, 0, false⟩ true] := by
    decide
  obtain ⟨named, targets, _, hresult, hresolution, _⟩ :=
    @resolve_specified (Database.ready .sample).source Store.sample.tags [⟨"heavens", true⟩, ⟨"mist", false⟩] hlooks
      (by decide)
  exact ⟨named, targets, (Except.ok.inj (hresult.symm.trans (resolve_table hlooks (by decide)).1)).trans hvalue,
    hresolution⟩

end Query
end TagSearch
