import TagSearch.Proofs.Query.Resolution
import TagSearch.Proofs.Search.Clause

/-! The keys that a resolved query asks for. A target that is brought along asks for nothing that its alias does not ask
for, unless it is an alias itself: then it asks for one key more, since every predicate is keyed by the tag that it
stands for and chains of aliases are not checked. -/
namespace TagSearch
open Sql

/-- The key that entities carry for a tag: an alias counts as the tag it stands for. -/
def Tag.key (tag : Tag) : UInt64 := if tag.isAlias then tag.aliased else tag.id

namespace Plan

/-- The plan that asks for all of the included keys and for none of the excluded ones. -/
def ofKeys (kind : Kind) (included excluded : List UInt64) : Plan where
  kind := kind
  clause := .all ((if included = [] then [] else [.isIn (.carryingEvery kind (included.map UInt64.toInt64))]) ++
    if excluded = [] then [] else [.isNotIn (.carryingAny kind (excluded.map UInt64.toInt64))])
  similarTo := none

/-- The values of some keys. -/
def keyValues (keys : List UInt64) : List Value := keys.map fun key => .integer key.toInt64

variable {kind : Kind} {predicates : List Predicate} {included excluded : List UInt64}

lemma bound_carryingEvery (keys : List UInt64) :
    (Owners.carryingEvery kind (keys.map UInt64.toInt64)).render.bound =
      keyValues keys ++ [.integer (.ofNat keys.length)] := by
  simp [Owners.render, Fragment.plain, Fragment.placeholder, Fragment.bound_list, keyValues, Function.comp_def]

lemma bound_carryingAny (keys : List UInt64) :
    (Owners.carryingAny kind (keys.map UInt64.toInt64)).render.bound = keyValues keys := by
  simp [Owners.render, Fragment.plain, Fragment.bound_list, keyValues, Function.comp_def]

/-- The included keys are bound with their number, and behind them the excluded ones. -/
lemma bound_ofKeys : (ofKeys kind included excluded).clause.render.bound =
    (if included = [] then [] else keyValues included ++ [.integer (.ofNat included.length)]) ++
      keyValues excluded := by
  have hin : (Condition.isIn (.carryingEvery kind (included.map UInt64.toInt64))).render.bound =
      keyValues included ++ [.integer (.ofNat included.length)] := by
    simp [Condition.render, Fragment.plain, bound_carryingEvery]
  have hout : (Condition.isNotIn (.carryingAny kind (excluded.map UInt64.toInt64))).render.bound =
      keyValues excluded := by
    simp [Condition.render, Fragment.plain, bound_carryingAny]
  by_cases hi : included = []
  · by_cases he : excluded = []
    · simp [ofKeys, hi, he, Clause.render, Fragment.plain, keyValues]
    · simp [ofKeys, hi, he, Clause.render, Fragment.join, hout]
  · by_cases he : excluded = []
    · simp [ofKeys, hi, he, Clause.render, Fragment.join, hin, keyValues]
    · simp [ofKeys, hi, he, Clause.render, Fragment.join, Fragment.plain, hin, hout]

lemma matchesNothing_ofKeys : (ofKeys kind included excluded).matchesNothing = false := rfl

lemma parts_plain (h : ∀ p ∈ predicates, p.condition = none) : parts kind predicates = .ok [] :=
  @parts_append_plain kind [] predicates h

/-- The plan of plain tags asks for their keys, or for nothing. -/
lemma ofPredicates_plain (h : ∀ p ∈ predicates, p.condition = none) :
    ofPredicates predicates kind =
      .ok (if predicates.any isUnsatisfiable then ⟨kind, .nothing, none⟩
        else ofKeys kind (tagKeys false predicates) (tagKeys true predicates)) := by
  refine ofPredicates_eq_ok.mpr ⟨[], parts_plain h, ?_⟩
  by_cases hany : predicates.any isUnsatisfiable = true
  · simp only [if_pos hany]
    rfl
  · simp only [if_neg hany, ofKeys, tagConditions, List.isEmpty_iff, List.map_eq_nil_iff, List.filterMap_nil,
      List.append_nil]
    rfl

end Plan

namespace Query

variable {source : Source} {tags : List Tag} {requests : List Request} {request : Request} {tag target : Tag}
  {p : Predicate} {sign : Bool} {key : UInt64} {kind : Kind}

/-- A request of the given sign names a tag of the given key. -/
def AsksFor (tags : List Tag) (requests : List Request) (sign : Bool) (key : UInt64) : Prop :=
  ∃ request ∈ requests, request.excluded = sign ∧ ∃ tag, request.Names tags tag ∧ tag.key = key

/-- The tag is brought along, and the request that is the first one to want it has the given sign. -/
def BringsAlong (tags : List Tag) (requests : List Request) (sign : Bool) (target : Tag) : Prop :=
  target ∈ tags ∧ ∃ place request, FirstWants tags requests place request target.id ∧ request.excluded = sign

/-- A tag that is brought along is an alias itself, for a tag of the given id. -/
def ChainsTo (tags : List Tag) (requests : List Request) (sign : Bool) (id : UInt64) : Prop :=
  ∃ target, BringsAlong tags requests sign target ∧ target.isAlias = true ∧ target.aliased = id

lemma BringsAlong.id_ne_zero (h : BringsAlong tags requests sign target) : target.id ≠ 0 := by
  obtain ⟨_, _, _, hwants, _⟩ := h
  exact hwants.points.1

/-- A target that is no alias has the key of the request that wants it. -/
lemma BringsAlong.asksFor (h : BringsAlong tags requests sign target) (hplain : target.isAlias = false) :
    AsksFor tags requests sign target.key := by
  obtain ⟨_, place, request, hwants, hsign⟩ := h
  obtain ⟨_, tag, htag, halias, htarget⟩ := hwants.points
  refine ⟨request, List.mem_of_getElem? hwants.getElem, hsign, tag, htag, ?_⟩
  rw [Tag.key, Tag.key, if_pos halias, htarget, if_neg (by simp [hplain])]

/-- The predicates of a resolved query, tag by tag. -/
lemma mem_resolution (hnames : (tags.map Tag.name).Nodup) (hids : (tags.map Tag.id).Nodup) :
    p ∈ requests.map (Request.predicate tags) ++ broughtAlong tags requests ↔
      (∃ request ∈ requests, ∃ tag, request.Names tags tag ∧ p = .ofTag tag request.excluded) ∨
      (∃ request ∈ requests, (∀ tag, ¬ request.Names tags tag) ∧ p = .unknown request.name request.excluded) ∨
      ∃ target sign, BringsAlong tags requests sign target ∧ p = .ofTag target sign := by
  rw [List.mem_append, List.mem_map, mem_broughtAlong hnames hids]
  constructor
  · rintro (⟨request, hrequest, rfl⟩ | ⟨tag, hmem, place, request, hwants, rfl⟩)
    · rcases predicate_cases hnames request with ⟨tag, htag, hp⟩ | ⟨hunknown, hp⟩
      · exact .inl ⟨request, hrequest, tag, htag, hp⟩
      · exact .inr (.inl ⟨request, hrequest, hunknown, hp⟩)
    · exact .inr (.inr ⟨tag, request.excluded, ⟨hmem, place, request, hwants, rfl⟩, rfl⟩)
  · rintro (⟨request, hrequest, tag, htag, rfl⟩ | ⟨request, hrequest, hunknown, rfl⟩ |
      ⟨target, sign, ⟨hmem, place, request, hwants, rfl⟩, rfl⟩)
    · exact .inl ⟨request, hrequest, predicate_of_names hnames htag⟩
    · exact .inl ⟨request, hrequest, predicate_of_not_names hunknown⟩
    · exact .inr ⟨target, hmem, place, request, hwants, rfl⟩

/-- The predicates of a resolved query are plain tags. -/
lemma plain_resolution (hnames : (tags.map Tag.name).Nodup) (hids : (tags.map Tag.id).Nodup) :
    ∀ p ∈ requests.map (Request.predicate tags) ++ broughtAlong tags requests, p.condition = none := by
  intro p hp
  rcases (mem_resolution hnames hids).mp hp with ⟨_, _, _, _, rfl⟩ | ⟨_, _, _, rfl⟩ | ⟨_, _, _, rfl⟩ <;> rfl

/-- A resolved query asks for the keys of its requests, and for the tags that the targets stand for which are aliases
themselves. -/
lemma mem_tagKeys_resolution (hnames : (tags.map Tag.name).Nodup) (hids : (tags.map Tag.id).Nodup) :
    key ∈ Plan.tagKeys sign (requests.map (Request.predicate tags) ++ broughtAlong tags requests) ↔
      key ≠ 0 ∧ (AsksFor tags requests sign key ∨ ChainsTo tags requests sign key) := by
  rw [Plan.mem_tagKeys]
  constructor
  · rintro ⟨p, hp, _, hknown, hsign, h0, rfl⟩
    refine ⟨h0, ?_⟩
    rcases (mem_resolution hnames hids).mp hp with ⟨request, hrequest, tag, htag, rfl⟩ | ⟨_, _, _, rfl⟩ |
      ⟨target, sign, htarget, rfl⟩
    · exact .inl ⟨request, hrequest, hsign, tag, htag, rfl⟩
    · cases hknown
    · obtain rfl := hsign
      cases halias : target.isAlias with
      | false => exact .inl (htarget.asksFor halias)
      | true => exact .inr ⟨target, htarget, halias, (if_pos halias).symm⟩
  · rintro ⟨h0, ⟨request, hrequest, rfl, tag, htag, rfl⟩ | ⟨target, htarget, halias, rfl⟩⟩
    · exact ⟨.ofTag tag request.excluded, (mem_resolution hnames hids).mpr (.inl ⟨request, hrequest, tag, htag, rfl⟩),
        rfl, rfl, rfl, h0, rfl⟩
    · have hkey : (Predicate.ofTag target sign).tagKey = target.aliased := if_pos halias
      exact ⟨.ofTag target sign, (mem_resolution hnames hids).mpr (.inr (.inr ⟨target, sign, htarget, rfl⟩)),
        rfl, rfl, rfl, hkey ▸ h0, hkey⟩

lemma isUnsatisfiable_ofTag : Plan.isUnsatisfiable (.ofTag tag sign) = true ↔ sign = false ∧ tag.key = 0 := by
  change (true && !sign && (false || decide (tag.key = 0))) = true ↔ _
  simp

lemma isUnsatisfiable_unknown {name : String} : Plan.isUnsatisfiable (.unknown name sign) = true ↔ sign = false := by
  change (true && !sign && (true || _)) = true ↔ _
  simp

/-- Of requests that can all be satisfied, only a target that is an alias for nothing cannot be carried. -/
lemma isUnsatisfiable_resolution (hnames : (tags.map Tag.name).Nodup) (hids : (tags.map Tag.id).Nodup)
    (hincluded : ∀ request ∈ requests, request.excluded = false → ∃ tag, request.Names tags tag ∧ tag.key ≠ 0) :
    (requests.map (Request.predicate tags) ++ broughtAlong tags requests).any Plan.isUnsatisfiable = true ↔
      ChainsTo tags requests false 0 := by
  rw [List.any_eq_true]
  constructor
  · rintro ⟨p, hp, hunsatisfiable⟩
    rcases (mem_resolution hnames hids).mp hp with ⟨request, hrequest, tag, htag, rfl⟩ |
      ⟨request, hrequest, hunknown, rfl⟩ | ⟨target, sign, htarget, rfl⟩
    · obtain ⟨hsign, hzero⟩ := isUnsatisfiable_ofTag.mp hunsatisfiable
      obtain ⟨other, hother, hne⟩ := hincluded request hrequest hsign
      exact absurd (htag.unique hnames hother ▸ hzero) hne
    · obtain ⟨tag, htag, _⟩ := hincluded request hrequest (isUnsatisfiable_unknown.mp hunsatisfiable)
      exact absurd htag (hunknown tag)
    · obtain ⟨rfl, hzero⟩ := isUnsatisfiable_ofTag.mp hunsatisfiable
      cases halias : target.isAlias with
      | false =>
        rw [Tag.key, if_neg (by simp [halias])] at hzero
        exact absurd hzero htarget.id_ne_zero
      | true =>
        rw [Tag.key, if_pos halias] at hzero
        exact ⟨target, htarget, halias, hzero⟩
  · rintro ⟨target, htarget, halias, hzero⟩
    have hkey : target.key = 0 := (if_pos halias).trans hzero
    exact ⟨.ofTag target false, (mem_resolution hnames hids).mpr (.inr (.inr ⟨target, false, htarget, rfl⟩)),
      isUnsatisfiable_ofTag.mpr ⟨rfl, hkey⟩⟩

/-- Requests whose included ones can all be satisfied ask for exactly their keys, except that a target which is an
alias itself asks for the tag it stands for as well, or makes the plan match nothing if it stands for none. -/
theorem expansion_keys (h : source.LooksUp tags requests.length) (hrequests : (requests.map Request.name).Nodup)
    (hincluded : ∀ request ∈ requests, request.excluded = false → ∃ tag, request.Names tags tag ∧ tag.key ≠ 0)
    (kind : Kind) :
    ∃ predicates plan, (resolve requests source).result = .ok predicates ∧
      Plan.ofPredicates predicates kind = .ok plan ∧
      (plan.matchesNothing = true ↔ ChainsTo tags requests false 0) ∧
      (plan.matchesNothing = false →
        ∃ keys : Bool → List UInt64,
          plan = .ofKeys kind (keys false) (keys true) ∧
          plan.clause.render.bound =
            (if keys false = [] then []
            else Plan.keyValues (keys false) ++ [.integer (.ofNat (keys false).length)]) ++
              Plan.keyValues (keys true) ∧
          (∀ sign, (keys sign).Nodup) ∧
          ∀ sign key, key ∈ keys sign ↔
            key ≠ 0 ∧ (AsksFor tags requests sign key ∨ ChainsTo tags requests sign key)) := by
  have hplan := @Plan.ofPredicates_plain kind _ (@plain_resolution tags requests h.names h.ids)
  have hnothing := isUnsatisfiable_resolution h.names h.ids hincluded
  refine ⟨_, _, (resolve_table h hrequests).1, hplan, ?_⟩
  by_cases hany : (requests.map (Request.predicate tags) ++ broughtAlong tags requests).any Plan.isUnsatisfiable = true
  · rw [if_pos hany]
    exact ⟨iff_of_true rfl (hnothing.mp hany), fun hmatches => by cases hmatches⟩
  · rw [if_neg hany]
    refine ⟨iff_of_false (by simp [Plan.matchesNothing_ofKeys]) fun hchain => hany (hnothing.mpr hchain), fun _ => ?_⟩
    exact ⟨fun sign => Plan.tagKeys sign _, rfl, Plan.bound_ofKeys, fun sign => Plan.keySet_nodup _,
      fun sign key => mem_tagKeys_resolution h.names h.ids⟩

end Query

/-- The sample with an alias for its alias. -/
def Store.chained : Store := sample.run [.createTag "ether" "" 1 none, .aliasTag 3 2]

/-- The same, where the alias in the middle stands for no tag. -/
def Store.unhinged : Store := chained.run [.aliasTag 2 0]

namespace Query

lemma looksUp_chained : (Database.ready .chained).source.LooksUp Store.chained.tags 1 :=
  looksUp_ready ((Store.Reachable.empty.run _).run _).consistent (by decide)

lemma looksUp_unhinged : (Database.ready .unhinged).source.LooksUp Store.unhinged.tags 1 :=
  looksUp_ready (((Store.Reachable.empty.run _).run _).run _).consistent (by decide)

lemma names_ether {s : Store} (h : ⟨3, "ether", "", 1, none, 2, true⟩ ∈ s.tags) :
    ∀ request ∈ [(⟨"ether", false⟩ : Request)], request.excluded = false →
      ∃ tag, request.Names s.tags tag ∧ tag.key ≠ 0 := by
  intro request hrequest _
  obtain rfl := List.mem_singleton.mp hrequest
  exact ⟨_, ⟨h, rfl⟩, by decide⟩

lemma bringsAlong_heavens :
    BringsAlong Store.chained.tags [⟨"ether", false⟩] false ⟨2, "heavens", "", 1, none, 1, true⟩ := by
  refine ⟨by decide, 0, ⟨"ether", false⟩, ⟨rfl, ⟨by decide, ⟨3, "ether", "", 1, none, 2, true⟩, ⟨by decide, rfl⟩, rfl,
    rfl⟩, by simp, fun other hother tag htag => ?_⟩, rfl⟩
  obtain rfl := List.mem_singleton.mp hother
  have hnamed : ∀ tag ∈ Store.chained.tags, tag.name = "ether" → tag.id ≠ 2 := by decide
  exact hnamed tag htag.1 htag.2

/-- The end of a chain asks for its middle, which is brought along and asks for the beginning. -/
theorem expansion_of_chain :
    ∃ predicates plan, ∃ keys : Bool → List UInt64,
      (resolve [⟨"ether", false⟩] (Database.ready .chained).source).result = .ok predicates ∧
      Plan.ofPredicates predicates .image = .ok plan ∧
      plan = .ofKeys .image (keys false) (keys true) ∧ 2 ∈ keys false ∧ 1 ∈ keys false := by
  obtain ⟨predicates, plan, hresult, hplan, hnothing, hkeys⟩ :=
    @expansion_keys (Database.ready .chained).source Store.chained.tags [⟨"ether", false⟩] looksUp_chained (by decide)
      (names_ether (by decide)) .image
  have hpoints : ∀ tag ∈ Store.chained.tags, tag.isAlias = true → tag.aliased ≠ 0 := by decide
  have hsome : plan.matchesNothing = false := by
    refine Bool.eq_false_iff.mpr fun h => ?_
    obtain ⟨target, ⟨hmem, _⟩, halias, hzero⟩ := hnothing.mp h
    exact hpoints target hmem halias hzero
  obtain ⟨keys, hplankeys, _, _, hmem⟩ := hkeys hsome
  refine ⟨predicates, plan, keys, hresult, hplan, hplankeys, (hmem false 2).mpr ⟨by decide, .inl ?_⟩,
    (hmem false 1).mpr ⟨by decide, .inr ⟨_, bringsAlong_heavens, rfl, rfl⟩⟩⟩
  exact ⟨⟨"ether", false⟩, .head _, rfl, ⟨3, "ether", "", 1, none, 2, true⟩, ⟨by decide, rfl⟩, rfl⟩

/-- In a chain, the plan asks for a key that no request has, or matches nothing, though the key of the request is not
zero. -/
theorem chain_adds_key :
    (Database.ready .chained).source.LooksUp Store.chained.tags 1 ∧
      (Database.ready .unhinged).source.LooksUp Store.unhinged.tags 1 ∧
      (∀ request ∈ [(⟨"ether", false⟩ : Request)], request.excluded = false →
        (∃ tag, request.Names Store.chained.tags tag ∧ tag.key ≠ 0) ∧
        ∃ tag, request.Names Store.unhinged.tags tag ∧ tag.key ≠ 0) ∧
      ¬ AsksFor Store.chained.tags [⟨"ether", false⟩] false 1 ∧
      (∃ predicates plan, (resolve [⟨"ether", false⟩] (Database.ready .chained).source).result = .ok predicates ∧
        Plan.ofPredicates predicates .image = .ok plan ∧
        plan.clause.render.bound = [.integer 1, .integer 2, .integer 2]) ∧
      ∃ predicates plan, (resolve [⟨"ether", false⟩] (Database.ready .unhinged).source).result = .ok predicates ∧
        Plan.ofPredicates predicates .image = .ok plan ∧ plan.matchesNothing = true := by
  have hchained : Plan.ofPredicates ([⟨"ether", false⟩].map (Request.predicate Store.chained.tags) ++
      broughtAlong Store.chained.tags [⟨"ether", false⟩]) .image = .ok (.ofKeys .image [1, 2] []) := by
    decide
  have hunhinged : Plan.ofPredicates ([⟨"ether", false⟩].map (Request.predicate Store.unhinged.tags) ++
      broughtAlong Store.unhinged.tags [⟨"ether", false⟩]) .image = .ok ⟨.image, .nothing, none⟩ := by
    decide
  refine ⟨looksUp_chained, looksUp_unhinged, fun request hrequest hsign =>
    ⟨names_ether (by decide) request hrequest hsign, names_ether (by decide) request hrequest hsign⟩, ?_,
    ⟨_, _, (resolve_table looksUp_chained (by decide)).1, hchained, Plan.bound_ofKeys⟩,
    ⟨_, _, (resolve_table looksUp_unhinged (by decide)).1, hunhinged, rfl⟩⟩
  rintro ⟨request, hrequest, _, tag, htag, hkey⟩
  obtain rfl := List.mem_singleton.mp hrequest
  have hnamed : ∀ tag ∈ Store.chained.tags, tag.name = "ether" → tag.key ≠ 1 := by decide
  exact hnamed tag htag.1 htag.2 hkey

end Query
end TagSearch
