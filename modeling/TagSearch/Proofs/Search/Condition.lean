import Mathlib.Data.List.Perm.Subperm
import TagSearch.Proofs.Metatag.Reading
import TagSearch.Proofs.Search.Meaning
import TagSearch.Proofs.Signed
import TagSearch.Proofs.Store.Integrity

/-! The conditions of a statement hold of a row exactly when the entity of the row has what the predicates behind
them ask for. -/
namespace TagSearch
open Sql

namespace Store

variable {s : Store} {e : Entity} {kind : Kind}

lemma mem_associations (he : e.kind = kind) (tag : UInt64) :
    (e.id.toInt64, tag.toInt64) ∈ s.associations kind ↔ s.Carries e tag := by
  subst he
  cases e with
  | image i =>
    simp only [Entity.kind, Entity.id, associations, Carries, List.mem_map, Prod.mk.injEq, toInt64_inj]
    constructor
    · rintro ⟨⟨image, tag⟩, hl, rfl, rfl⟩
      exact hl
    · intro hl
      exact ⟨_, hl, rfl, rfl⟩
  | collection c =>
    simp only [Entity.kind, Entity.id, associations, Carries, mem_firstOfKey_id, List.mem_flatMap, List.mem_map,
      List.mem_filter, Prod.mk.injEq, toInt64_inj, decide_eq_true_eq]
    constructor
    · rintro ⟨m, hm, ⟨image, tag⟩, ⟨hl, rfl⟩, hc, rfl⟩
      exact ⟨m, hm, hc, hl⟩
    · rintro ⟨m, hm, hc, hl⟩
      exact ⟨m, hm, _, ⟨hl, rfl⟩, hc, rfl⟩

lemma mem_associationsWith {tags : List Int64} {a : Int64 × Int64} :
    a ∈ s.associationsWith kind tags ↔ a ∈ s.associations kind ∧ a.2 ∈ tags := by
  simp [associationsWith]

lemma mem_carryingAny {tags : List Int64} {owner : Int64} :
    owner ∈ s.owners (.carryingAny kind tags) ↔ ∃ tag ∈ tags, (owner, tag) ∈ s.associations kind := by
  rw [owners, List.mem_map]
  constructor
  · rintro ⟨⟨owner, tag⟩, ha, rfl⟩
    obtain ⟨ha, ht⟩ := mem_associationsWith.mp ha
    exact ⟨tag, ht, ha⟩
  · rintro ⟨tag, ht, ha⟩
    exact ⟨(owner, tag), mem_associationsWith.mpr ⟨ha, ht⟩, rfl⟩

/-- A list without repetitions that draws from another one is as long as it exactly when it leaves nothing out. -/
lemma length_eq_iff_subset {α : Type} {part whole : List α} (hpart : part.Nodup) (hwhole : whole.Nodup)
    (hsub : part ⊆ whole) : part.length = whole.length ↔ whole ⊆ part := by
  have hle := hpart.subperm hsub
  constructor
  · intro hlen
    exact (hle.perm_of_length_le (Nat.le_of_eq hlen.symm)).symm.subset
  · intro hback
    exact (hle.antisymm (hwhole.subperm hback)).length_eq

/-- Counting the distinct tags of an owner against the number of tags asks for all of them. -/
lemma mem_carryingEvery {tags : List Int64} (hnodup : tags.Nodup) (hne : tags ≠ []) {owner : Int64} :
    owner ∈ s.owners (.carryingEvery kind tags) ↔ ∀ tag ∈ tags, (owner, tag) ∈ s.associations kind := by
  have hmem : ∀ tag, tag ∈ firstOfKey id
      (((s.associationsWith kind tags).filter fun a => a.1 = owner).map Prod.snd) ↔
        (owner, tag) ∈ s.associations kind ∧ tag ∈ tags := by
    intro tag
    simp only [mem_firstOfKey_id, List.mem_map, List.mem_filter, mem_associationsWith, decide_eq_true_eq]
    constructor
    · rintro ⟨⟨o, t⟩, ⟨⟨ha, ht⟩, rfl⟩, rfl⟩
      exact ⟨ha, ht⟩
    · rintro ⟨ha, ht⟩
      exact ⟨(owner, tag), ⟨⟨ha, ht⟩, rfl⟩, rfl⟩
  have hcount : distinctTags owner (s.associationsWith kind tags) = tags.length ↔
      ∀ tag ∈ tags, (owner, tag) ∈ s.associations kind := by
    rw [distinctTags, length_eq_iff_subset (firstOfKey_id_nodup _) hnodup fun tag ht => ((hmem tag).mp ht).2]
    exact ⟨fun h tag ht => ((hmem tag).mp (h ht)).1, fun h tag ht => (hmem tag).mpr ⟨h tag ht, ht⟩⟩
  simp only [owners, List.mem_filter, mem_firstOfKey_id, List.mem_map, decide_eq_true_eq, hcount]
  refine ⟨And.right, fun h => ⟨?_, h⟩⟩
  obtain ⟨tag, ht⟩ := List.exists_mem_of_ne_nil _ hne
  exact ⟨(owner, tag), mem_associationsWith.mpr ⟨h tag ht, ht⟩, rfl⟩

end Store

namespace Plan

variable {predicates : List Predicate} {excluded : Bool} {k : UInt64}

lemma mem_keySet {keys : List UInt64} : k ∈ keySet keys ↔ k ∈ keys :=
  Ordered.mem_ofList _ (fun _ _ => UInt64.toNat_inj.mp) keys

lemma keySet_nodup (keys : List UInt64) : (keySet keys).Nodup :=
  (Ordered.isOrdered_ofList _ keys).nodup

lemma mem_tagKeys :
    k ∈ tagKeys excluded predicates ↔
      ∃ p ∈ predicates, p.condition = none ∧ p.known ∧ p.excluded = excluded ∧ p.tagKey ≠ 0 ∧ p.tagKey = k := by
  simp only [tagKeys, mem_keySet, List.mem_map, List.mem_filter, Predicate.isMeta, Bool.and_eq_true,
    Bool.not_eq_true', Option.isSome_eq_false_iff, Option.isNone_iff_eq_none, beq_iff_eq, ne_eq,
    decide_not, decide_eq_false_iff_not]
  constructor
  · rintro ⟨p, ⟨hp, ⟨⟨hc, hk⟩, hx⟩, h0⟩, rfl⟩
    exact ⟨p, hp, hc, hk, hx, h0, rfl⟩
  · rintro ⟨p, hp, hc, hk, hx, h0, rfl⟩
    exact ⟨p, ⟨hp, ⟨⟨hc, hk⟩, hx⟩, h0⟩, rfl⟩

end Plan

namespace Store

variable {s : Store} {e : Entity} {kind : Kind} {predicates : List Predicate}

/-- The conditions of the plain tags ask for every included key and for no excluded one. -/
theorem holds_tagConditions (he : e.kind = kind) :
    (∀ q ∈ Plan.tagConditions kind predicates, s.holds e.row q = true) ↔
      (∀ k ∈ Plan.tagKeys false predicates, s.Carries e k) ∧
        ∀ k ∈ Plan.tagKeys true predicates, ¬ s.Carries e k := by
  have hin : (∀ q ∈ (if ((Plan.tagKeys false predicates).map UInt64.toInt64).isEmpty then []
        else [Condition.isIn (.carryingEvery kind ((Plan.tagKeys false predicates).map UInt64.toInt64))]),
      s.holds e.row q = true) ↔ ∀ k ∈ Plan.tagKeys false predicates, s.Carries e k := by
    by_cases hempty : Plan.tagKeys false predicates = []
    · simp [hempty]
    · have hnodup : ((Plan.tagKeys false predicates).map UInt64.toInt64).Nodup :=
        (Plan.keySet_nodup _).map fun _ _ => toInt64_inj.mp
      simp [hempty, holds, mem_carryingEvery hnodup, mem_associations he]
  have hout : (∀ q ∈ (if ((Plan.tagKeys true predicates).map UInt64.toInt64).isEmpty then []
        else [Condition.isNotIn (.carryingAny kind ((Plan.tagKeys true predicates).map UInt64.toInt64))]),
      s.holds e.row q = true) ↔ ∀ k ∈ Plan.tagKeys true predicates, ¬ s.Carries e k := by
    by_cases hempty : Plan.tagKeys true predicates = []
    · simp [hempty]
    · simp [hempty, holds, mem_carryingAny, mem_associations he]
  rw [Plan.tagConditions, List.forall_mem_append, hin, hout]

/-- A part of a plan holds of a row; an order does not select rows. -/
def HoldsPart (s : Store) (row : Row) : Plan.Part → Prop
  | .condition q => s.holds row q = true
  | .order _ => True

/-- An image has one link for each of its tags, so there are fewer than 2⁶³ of them. -/
lemma linksOf_length_lt (hs : s.Consistent) (image : UInt64) : (s.linksOf image).length < 2 ^ 63 := by
  have hpairwise : (s.linksOf image).Pairwise fun a b => a.tag ≠ b.tag := by
    refine List.Pairwise.imp_of_mem ?_ (hs.links.filter _)
    intro a b ha hb hab htag
    have ha := of_decide_eq_true (List.mem_filter.mp ha).2
    have hb := of_decide_eq_true (List.mem_filter.mp hb).2
    rw [TagLink.key, TagLink.key, ha, hb, htag] at hab
    exact Nat.lt_irrefl _ hab
  have hnodup : ((s.linksOf image).map TagLink.tag).Nodup := List.pairwise_map.mpr hpairwise
  have hsub : (s.linksOf image).map TagLink.tag ⊆ s.tags.map Tag.id := by
    intro tag ht
    obtain ⟨l, hl, rfl⟩ := List.mem_map.mp ht
    exact hs.linkedTag l (List.mem_filter.mp hl).1
  have hle := (hnodup.subperm hsub).length_le
  rw [List.length_map] at hle
  exact Nat.lt_of_le_of_lt hle hs.tagIds.length_lt

lemma linkCount_row (hs : s.Consistent) (i : Image) :
    (s.linkCount i.row).toInt = (s.linksOf i.id).length := by
  have hcount : (s.links.countP fun l => l.image.toInt64 = i.row.id) = (s.linksOf i.id).length := by
    rw [linksOf, ← List.countP_eq_length_filter]
    refine List.countP_congr fun l _ => ?_
    change decide (l.image.toInt64 = i.id.toInt64) = true ↔ _
    rw [decide_eq_true_eq, decide_eq_true_eq, toInt64_inj]
  rw [linkCount, hcount, Int64.toInt_ofNat_of_lt (linksOf_length_lt hs i.id)]

/-- Integers compare by size, whether or not texts would become numbers. -/
lemma holds_integers {affinity : Affinity} (ha : affinity ≠ .text) (c : Comparator) (a b : Int64) :
    Sql.holds affinity c (.integer a) (.integer b) false = true ↔ c.OfIntegers a.toInt b.toInt := by
  have hoperand : affinity.operand (.integer b) = .number (.integer b) := by
    cases affinity with
    | text => exact absurd rfl ha
    | numeric => rfl
    | none => rfl
  cases c <;>
    simp only [Sql.holds, hoperand, Value.compareTo, Value.asText, escapeChar, Comparator.OfIntegers, ne_eq,
      decide_not, Bool.not_eq_true', decide_eq_false_iff_not, decide_eq_true_eq, Int.compare_eq_eq,
      Int.compare_eq_lt, Int.compare_eq_gt, Int.not_lt, Bool.false_eq_true, if_false]

lemma ofValues_integers (c : Comparator) (a b : Int64) :
    c.OfValues (.integer a) (.integer b) ↔ c.OfIntegers a.toInt b.toInt := by
  cases c <;> rfl

/-- Ids are equal as signed integers exactly when they are equal. -/
lemma holds_users (excluded : Bool) (a b : UInt64) :
    Sql.holds .numeric (Metatag.signed excluded .eq) (.integer a.toInt64) (.integer b.toInt64) false = true ↔
      (Metatag.signed excluded .eq).OfValues (.user a) (.user b) := by
  rw [holds_integers (by decide)]
  cases excluded with
  | false => exact Int64.toInt_inj.trans toInt64_inj
  | true => exact not_congr (Int64.toInt_inj.trans toInt64_inj)

lemma compareTo_text {a b : String} : (Value.text a).compareTo (.text b) = .eq ↔ a = b := by
  by_cases hab : a = b
  · simp [Value.compareTo, hab]
  · simp only [Value.compareTo, hab, if_false, iff_false]
    split <;> simp

lemma holds_texts (excluded : Bool) (a b : String) :
    Sql.holds .text (Metatag.signed excluded .eq) (.text a) (.text b) false = true ↔
      (Metatag.signed excluded .eq).OfValues (.text a) (.text b) := by
  cases excluded with
  | false => exact decide_eq_true_iff.trans compareTo_text
  | true => exact decide_eq_true_iff.trans (not_congr compareTo_text)

lemma holds_patterns (excluded : Bool) (a pattern : String) :
    Sql.holds .text (Metatag.signed excluded .like) (.text a) (.text pattern) true = true ↔
      (Metatag.signed excluded .like).OfValues (.text a) (.pattern pattern) := by
  cases excluded with
  | false => exact Iff.rfl
  | true => exact Iff.of_eq (Bool.not_eq_true' _)

lemma mem_collected {image : UInt64} : image.toInt64 ∈ s.owners .collected ↔ s.isCollected image = true := by
  simp [owners, isCollected]

/-- Of the four pairs of a flag and a sign, two ask for members and two for the other images. -/
lemma holds_collected (excluded b : Bool) (i : Image) :
    s.holds i.row (if Plan.wantsMembers ⟨"incollection", .flag b, Metatag.signed excluded .eq⟩ then
        .isIn .collected else .isNotIn .collected) = true ↔
      (Metatag.signed excluded .eq).OfValues (.flag (s.isCollected i.id)) (.flag b) := by
  have hrow : i.row.id ∈ s.owners .collected ↔ s.isCollected i.id = true := mem_collected
  cases excluded <;> cases b <;>
    simp [Plan.wantsMembers, Metatag.signed, Comparator.inverse, Comparator.OfValues, holds, hrow]

/-- What a column holds of a value. -/
def stored : Metatag.Value → Value
  | .user id => .integer id.toInt64
  | .integer n => .integer n
  | .flag b => .integer (if b then 1 else 0)
  | .text s | .pattern s => .text s
  | .hashes pair => .text pair.render

lemma row_column (e : Entity) (column : Column) : e.row.column column = (e.column? column).map stored := by
  cases e <;> cases column <;> rfl

/-- A comparison of a column holds as the comparator says of what the column holds. -/
lemma holds_compare {column : Column} {c : Comparator} {bound : Value} {escaped : Bool} {wanted : Metatag.Value}
    (h : ∀ v, e.column? column = some v →
      (Sql.holds column.affinity c (stored v) bound escaped = true ↔ c.OfValues v wanted)) :
    s.holds e.row (.compare column c bound escaped) = true ↔
      ∃ v, e.column? column = some v ∧ c.OfValues v wanted := by
  rw [holds, row_column]
  cases hv : e.column? column with
  | none => simp
  | some v => simp [h v hv]

/-- Every metatag that is interpreted has its part in a plan, and the part holds of the entities that meet the
condition. -/
theorem partOf_reads {excluded : Bool} {c : MetaCondition} (h : Metatag.Reads kind excluded c) (name : String) :
    ∃ part, Plan.partOf kind name excluded c = .ok part ∧
      ∀ (s : Store) (e : Entity), s.Consistent → e.kind = kind → (s.HoldsPart e.row part ↔ s.Meets e c) := by
  cases h with
  | uploader kind excluded user =>
    refine ⟨.condition (.compare .uploader _ (.integer user.toInt64) false), rfl, fun s e _ _ => ?_⟩
    refine holds_compare fun v hv => ?_
    cases e <;> cases hv <;> exact holds_users excluded _ user
  | rating excluded text =>
    refine ⟨.condition (.compare .rating _ (.text text) false), rfl, fun s e _ _ => ?_⟩
    refine holds_compare fun v hv => ?_
    cases e <;> cases hv
    exact holds_texts excluded _ text
  | score excluded n c =>
    refine ⟨.condition (.compare .averageScore c (.integer n) false), rfl, fun s e _ _ => ?_⟩
    refine holds_compare fun v hv => ?_
    cases e <;> cases hv
    exact (holds_integers (by decide) c _ n).trans (ofValues_integers c _ n).symm
  | totalScore excluded n c =>
    refine ⟨.condition (.compare .totalScore c (.integer n) false), rfl, fun s e _ _ => ?_⟩
    refine holds_compare fun v hv => ?_
    cases e <;> cases hv
    exact (holds_integers (by decide) c _ n).trans (ofValues_integers c _ n).symm
  | scoreVoters excluded n c =>
    refine ⟨.condition (.compare .scoreVoters c (.integer n) false), rfl, fun s e _ _ => ?_⟩
    refine holds_compare fun v hv => ?_
    cases e <;> cases hv
    exact (holds_integers (by decide) c _ n).trans (ofValues_integers c _ n).symm
  | inCollection excluded b =>
    refine ⟨_, rfl, fun s e _ he => ?_⟩
    cases e with
    | collection c => cases he
    | image i => exact holds_collected excluded b i
  | tagCount excluded n c =>
    refine ⟨.condition (.tagCount c (.integer n)), rfl, fun s e hs he => ?_⟩
    cases e with
    | collection c => cases he
    | image i =>
      have hcount := @holds_integers .none (by decide) c (s.linkCount i.row) n
      rw [linkCount_row hs] at hcount
      refine hcount.trans ⟨fun h => ⟨n, rfl, h⟩, ?_⟩
      rintro ⟨m, hm, h⟩
      cases hm
      exact h
  | orderSimilar pair => exact ⟨.order pair, rfl, fun s e _ _ => Iff.rfl⟩
  | name kind excluded pattern =>
    refine ⟨.condition (.compare .name _ (.text pattern) true), rfl, fun s e _ _ => ?_⟩
    refine holds_compare fun v hv => ?_
    cases e <;> cases hv <;> exact holds_patterns excluded _ pattern
  | location excluded pattern =>
    refine ⟨.condition (.compare .location _ (.text pattern) true), rfl, fun s e _ _ => ?_⟩
    refine holds_compare fun v hv => ?_
    cases e <;> cases hv
    exact holds_patterns excluded _ pattern

end Store
end TagSearch
