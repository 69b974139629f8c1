import TagSearch.Proofs.Query.Boundary
import TagSearch.Proofs.Query.Lookup
import TagSearch.Proofs.Query.NormalForm

/-! A query with the name of one more tag behind it. The name is one more token and one more name to look up, and
nothing else changes. -/
namespace TagSearch.Query
open Sql

/-- A name that a query can write as it is. -/
def IsTagName (name : String) : Prop := name ≠ "" ∧ ∀ c ∈ name.toList, isNameChar c = true

instance (name : String) : Decidable (IsTagName name) :=
  @instDecidableAnd _ _ inferInstance (List.decidableBAll (fun c => isNameChar c = true) name.toList)

variable {kind : Kind} {source : Source} {raw name sign : String}

namespace IsTagName

variable (h : IsTagName name) (negated : Bool)
include h

lemma normalize_eq : normalize name = .tag name := by
  have hrender := @normalize_render (.tag name) h.2
  rwa [NormalForm.render] at hrender

lemma isBare : IsBare name.toList := by
  have hrender := @isBare_render (.tag name) h.2 fun heq => h.1 (NormalForm.tag.inj heq)
  rwa [NormalForm.render] at hrender

lemma key_eq : Token.key kind ⟨name, negated⟩ = name := by
  rw [Token.key, h.normalize_eq, NormalForm.key]

lemma request_eq : Token.request? ⟨name, negated⟩ = some ⟨name, negated⟩ := by
  rw [Token.request?, h.normalize_eq]

/-- A name has a meaning. -/
lemma not_fails (e : SearchError) : ¬ Token.Fails kind source ⟨name, negated⟩ e := by
  rintro ⟨_, _, _, hform, _⟩
  cases h.normalize_eq.symm.trans hform

end IsTagName

section Append

variable (h : IsTagName name) (hsign : sign = "" ∨ sign = "-" ∨ sign = "+")
include h hsign

/-- A name with a sign is a word. -/
lemma step_sign : Scan.outside.step (sign ++ name).toList = (.outside, [⟨name, sign == "-"⟩]) := by
  have htoken : ∀ negated, token negated name.toList = ⟨name, negated⟩ := fun negated => by
    rw [token, String.ofList_toList]
  have hopen : ∀ negated, openWord negated name.toList = (.outside, [⟨name, negated⟩]) := fun negated => by
    rw [openWord_of_bare h.isBare, htoken]
  rw [String.toList_append]
  rcases hsign with rfl | rfl | rfl
  · change openWord (splitSign name.toList).1 (splitSign name.toList).2 = _
    rw [splitSign_of_bare h.isBare, hopen]
    rfl
  · exact hopen true
  · exact hopen false

lemma readsAs_sign : ReadsAs (sign ++ name).toList [⟨name, sign == "-"⟩] := by
  have hsolid : Text.IsSolid (sign ++ name).toList := by
    rw [String.toList_append]
    refine Text.IsSolid.append ?_ h.isBare.solid
    rcases hsign with rfl | rfl | rfl <;> decide
  have hne : (sign ++ name).toList ≠ [] := by
    obtain ⟨c, rest, hname, _⟩ := h.isBare.start
    simp [String.toList_append, hname]
  rw [ReadsAs, Text.words_solid _ hsolid, Text.ofRun_of_ne_nil hne]
  simp only [Scan.run, step_sign h hsign, List.append_nil]

variable (hclosed : IsClosed raw) (hkey : ∀ u ∈ tokenize raw, u.key kind ≠ name)
include hclosed hkey

/-- Behind a query that leaves no quotation open, a name is one more token. -/
lemma tokenize_sign : tokenize (raw ++ " " ++ sign ++ name) = tokenize raw ++ [⟨name, sign == "-"⟩] := by
  have hnew : name ∉ (tokenize raw).map Token.text := by
    intro hmem
    obtain ⟨u, hu, htext⟩ := List.mem_map.mp hmem
    refine hkey u hu ?_
    rw [Token.key, htext, h.normalize_eq, NormalForm.key]
  have hitems : items (raw ++ " " ++ sign ++ name).toList = items raw.toList ++ items (sign ++ name).toList := by
    have hgap : Text.IsGap [' '] := by decide
    have htext : (raw ++ " " ++ sign ++ name).toList = raw.toList ++ [' '] ++ (sign ++ name).toList := by
      simp [String.toList_append]
    rw [htext, hclosed.readsAs.items_append hgap]
  have hlast : tokenize (sign ++ name) = [⟨name, sign == "-"⟩] := (readsAs_sign h hsign).tokenize_eq h.1
  rw [tokenize_of_items_append hitems, hlast, List.filter_cons_of_pos (by simpa using hnew),
    List.filter_nil]

/-- The new token counts if no other one has its key. -/
lemma keptTokens_sign :
    keptTokens (raw ++ " " ++ sign ++ name) kind = keptTokens raw kind ++ [⟨name, sign == "-"⟩] := by
  have hnew : name ∉ (tokenize raw).map (Token.key kind) := by
    intro hmem
    obtain ⟨u, hu, hname⟩ := List.mem_map.mp hmem
    exact hkey u hu hname
  have hlast : (firstOfKey (Token.key kind) [⟨name, sign == "-"⟩]).filter
      (fun t => t.key kind ∉ (tokenize raw).map (Token.key kind)) = [⟨name, sign == "-"⟩] := by
    simp only [firstOfKey_cons, firstOfKey_nil, List.filter_cons, List.filter_nil, h.key_eq, hnew, not_false_iff,
      decide_true, if_true]
  rw [keptTokens_eq, tokenize_sign h hsign hclosed hkey, firstOfKey_append, hlast, keptTokens_eq, List.filter_append]
  simp [h.key_eq, h.1]

lemma requests_sign : requests (keptTokens (raw ++ " " ++ sign ++ name) kind) =
    requests (keptTokens raw kind) ++ [⟨name, sign == "-"⟩] := by
  rw [keptTokens_sign h hsign hclosed hkey, requests, List.filterMap_append, ← requests, List.filterMap_cons,
    h.request_eq, List.filterMap_nil]

lemma meant_sign (meant : ∀ u ∈ keptTokens raw kind, ∀ e, ¬ u.Fails kind source e) :
    ∀ u ∈ keptTokens (raw ++ " " ++ sign ++ name) kind, ∀ e, ¬ u.Fails kind source e := by
  rw [keptTokens_sign h hsign hclosed hkey, List.forall_mem_append, List.forall_mem_singleton]
  exact ⟨meant, h.not_fails _⟩

end Append

/-- A query of as many names as the engine looks up at once has no room for one more. -/
theorem result_parse_sign_refused {s : Store} (hsign : sign = "" ∨ sign = "-" ∨ sign = "+") (hclosed : IsClosed raw)
    (meant : ∀ u ∈ keptTokens raw kind, ∀ e, ¬ u.Fails kind (Database.ready s).source e)
    (hfull : valueLimit ≤ (requests (keptTokens raw kind)).length) :
    ∃ text offset, ∀ name, IsTagName name → (∀ u ∈ tokenize raw, u.key kind ≠ name) →
      (parse (raw ++ " " ++ sign ++ name) kind (Database.ready s).source).result =
        .error (.store (.database (.tooManyValues text offset))) := by
  obtain ⟨text, offset, hrefused⟩ := result_parse_refused (Nat.lt_succ_of_le hfull)
  refine ⟨text, offset, fun name h hkey => ?_⟩
  refine hrefused s _ kind _ (terms_eq_map _ _) (requests_nodup (keptTokens_pairwise _ _))
    (meant_sign h hsign hclosed hkey meant) ?_
  rw [requests_sign h hsign hclosed hkey, List.length_append, List.length_singleton]

end TagSearch.Query
