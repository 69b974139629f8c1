import Mathlib.Tactic.Lemma
import TagSearch.Source

/-! What an inquiry asks and how it fails, step by step. -/
namespace TagSearch

/-- A question for tags by their names or ids. -/
def Question.isTagLookup : Question → Bool
  | tagsByNames _ | tagsByIds _ => true
  | _ => false

namespace Inquiry

variable {α β : Type} {source : Source}

lemma ok_bind {ε : Type} (a : α) (f : α → Except ε β) : (Except.ok a >>= f) = f a := rfl

lemma error_bind {ε : Type} (e : ε) (f : α → Except ε β) : (Except.error e >>= f) = Except.error e := rfl

/-- What is done with a result asks nothing. -/
lemma asked_bind_pure (x : Inquiry α) (f : α → β) (source : Source) :
    ((x >>= fun a => Pure.pure (f a)) source).asked = (x source).asked := by
  cases h : (x source).result with
  | error e => exact asked_bind_error source _ h
  | ok a => exact (asked_bind_ok source _ h).trans (List.append_nil _)

/-- All that an inquiry asks is allowed. -/
def AsksOnly (allowed : Question → Prop) (x : Inquiry α) (source : Source) : Prop :=
  ∀ question ∈ (x source).asked, allowed question

/-- An inquiry that fails has an allowed error. -/
def FailsOnly (allowed : SearchError → Prop) (x : Inquiry α) (source : Source) : Prop :=
  ∀ error, (x source).result = .error error → allowed error

section Asks

variable {allowed : Question → Prop} {x : Inquiry α} {f : α → Inquiry β}

lemma asksOnly_pure (a : α) : AsksOnly allowed (Pure.pure a : Inquiry α) source :=
  fun _ h => absurd h List.not_mem_nil

lemma asksOnly_fail (error : SearchError) : AsksOnly allowed (fail error : Inquiry α) source :=
  fun _ h => absurd h List.not_mem_nil

lemma asksOnly_ofExcept (x : Except SearchError α) : AsksOnly allowed (ofExcept x) source := by
  cases x with
  | ok a => exact asksOnly_pure a
  | error e => exact asksOnly_fail e

lemma asksOnly_ask {question : Question} (h : allowed question) (answer : Source → Except StoreError α) :
    AsksOnly allowed (ask question answer) source :=
  fun _ hq => List.mem_singleton.mp hq ▸ h

lemma AsksOnly.bind (hx : AsksOnly allowed x source) (hf : ∀ a, AsksOnly allowed (f a) source) :
    AsksOnly allowed (x >>= f) source := by
  intro question h
  cases hresult : (x source).result with
  | error e =>
    rw [asked_bind_error source f hresult] at h
    exact hx question h
  | ok a =>
    rw [asked_bind_ok source f hresult] at h
    rcases List.mem_append.mp h with h | h
    · exact hx question h
    · exact hf a question h

end Asks

section Fails

variable {allowed : SearchError → Prop} {x : Inquiry α} {f : α → Inquiry β}

lemma failsOnly_pure (a : α) : FailsOnly allowed (Pure.pure a : Inquiry α) source :=
  fun _ h => nomatch h

lemma failsOnly_fail {error : SearchError} (h : allowed error) : FailsOnly allowed (fail error : Inquiry α) source := by
  intro e he
  cases he
  exact h

lemma failsOnly_ask {question : Question} (h : ∀ e, allowed (.store e)) (answer : Source → Except StoreError α) :
    FailsOnly allowed (ask question answer) source := by
  intro error herror
  change (answer source).mapError SearchError.store = .error error at herror
  cases hanswer : answer source with
  | ok a =>
    rw [hanswer] at herror
    cases herror
  | error e =>
    rw [hanswer] at herror
    cases herror
    exact h e

lemma FailsOnly.bind (hx : FailsOnly allowed x source) (hf : ∀ a, FailsOnly allowed (f a) source) :
    FailsOnly allowed (x >>= f) source := by
  intro error h
  rw [result_bind] at h
  cases hresult : (x source).result with
  | error e =>
    rw [hresult] at h
    cases h
    exact hx error hresult
  | ok a =>
    rw [hresult] at h
    exact hf a error h

end Fails

end Inquiry
end TagSearch
