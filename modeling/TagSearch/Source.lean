import TagSearch.Catalog
import TagSearch.SearchError
import TagSearch.Sql.Statement

/-!
Questions to a catalog. A source answers them; an inquiry asks a source questions in order and keeps account of
all that it asked, whether or not it comes to a result.
-/
namespace TagSearch

/-- What a search may ask of a catalog. -/
inductive Question
  | tagsByNames (names : List String)
  | tagsByIds (ids : List UInt64)
  | userIdByName (name : String)
  | userFilter (user : UInt64)
  | imageHashes (image : UInt64)
  | countMatches (statement : Sql.Statement)
  | fetchId (statement : Sql.Statement)
  | fetchImages (statement : Sql.Statement)
  | fetchCollections (statement : Sql.Statement)
  | totalImages
  /-- The answers that follow are to describe one state of the catalog. -/
  | snapshot
deriving Repr, DecidableEq

/-- The answers of a catalog in one state. -/
structure Source where
  tagsByNames : List String → Except StoreError (List Tag)
  tagsByIds : List UInt64 → Except StoreError (List Tag)
  userIdByName : String → Except StoreError (Option UInt64)
  userFilter : UInt64 → Except StoreError String
  imageHashes : UInt64 → Except StoreError (Option HashPair)
  countMatches : Sql.Statement → Except StoreError UInt64
  fetchId : Sql.Statement → Except StoreError (Option UInt64)
  fetchImages : Sql.Statement → Except StoreError (List ImageSummary)
  fetchCollections : Sql.Statement → Except StoreError (List CollectionSummary)
  totalImages : Except StoreError UInt64
  snapshot : Except StoreError Unit

/-- The result of an inquiry and the questions it asked. -/
structure Outcome (α : Type) where
  result : Except SearchError α
  asked : List Question

def Inquiry (α : Type) : Type := Source → Outcome α

namespace Inquiry

def pure {α : Type} (a : α) : Inquiry α := fun _ => ⟨.ok a, []⟩

def fail {α : Type} (error : SearchError) : Inquiry α := fun _ => ⟨.error error, []⟩

def bind {α β : Type} (x : Inquiry α) (f : α → Inquiry β) : Inquiry β := fun source =>
  match (x source).result with
  | .ok a => ⟨(f a source).result, (x source).asked ++ (f a source).asked⟩
  | .error error => ⟨.error error, (x source).asked⟩

instance : Monad Inquiry where
  pure := Inquiry.pure
  bind := Inquiry.bind

def ask {α : Type} (question : Question) (answer : Source → Except StoreError α) : Inquiry α := fun source =>
  ⟨(answer source).mapError .store, [question]⟩

def ofExcept {α : Type} : Except SearchError α → Inquiry α
  | .ok a => pure a
  | .error error => fail error

def tagsByNames (names : List String) : Inquiry (List Tag) :=
  ask (.tagsByNames names) fun s => s.tagsByNames names

def tagsByIds (ids : List UInt64) : Inquiry (List Tag) :=
  ask (.tagsByIds ids) fun s => s.tagsByIds ids

def userIdByName (name : String) : Inquiry (Option UInt64) :=
  ask (.userIdByName name) fun s => s.userIdByName name

def userFilter (user : UInt64) : Inquiry String :=
  ask (.userFilter user) fun s => s.userFilter user

def imageHashes (image : UInt64) : Inquiry (Option HashPair) :=
  ask (.imageHashes image) fun s => s.imageHashes image

def countMatches (statement : Sql.Statement) : Inquiry UInt64 :=
  ask (.countMatches statement) fun s => s.countMatches statement

def fetchId (statement : Sql.Statement) : Inquiry (Option UInt64) :=
  ask (.fetchId statement) fun s => s.fetchId statement

def fetchImages (statement : Sql.Statement) : Inquiry (List ImageSummary) :=
  ask (.fetchImages statement) fun s => s.fetchImages statement

def fetchCollections (statement : Sql.Statement) : Inquiry (List CollectionSummary) :=
  ask (.fetchCollections statement) fun s => s.fetchCollections statement

def totalImages : Inquiry UInt64 :=
  ask .totalImages fun s => s.totalImages

def snapshot : Inquiry Unit :=
  ask .snapshot fun s => s.snapshot

variable {α β : Type} (source : Source)

theorem bind_eq_ok {ε : Type} {x : Except ε α} {f : α → Except ε β} {b : β} :
    x >>= f = .ok b ↔ ∃ a, x = .ok a ∧ f a = .ok b := by
  cases x with
  | error e => exact ⟨fun h => (by cases h), fun ⟨_, h, _⟩ => (by cases h)⟩
  | ok a => exact ⟨fun h => ⟨a, rfl, h⟩, fun ⟨_, h, hb⟩ => by cases h; exact hb⟩

@[simp] theorem result_pure (a : α) : ((Pure.pure a : Inquiry α) source).result = .ok a := rfl

@[simp] theorem asked_pure (a : α) : ((Pure.pure a : Inquiry α) source).asked = [] := rfl

@[simp] theorem result_fail (error : SearchError) : ((fail error : Inquiry α) source).result = .error error := rfl

@[simp] theorem asked_fail (error : SearchError) : ((fail error : Inquiry α) source).asked = [] := rfl

/-- The result of a sequence is the sequence of the results. -/
@[simp] theorem result_bind (x : Inquiry α) (f : α → Inquiry β) :
    ((x >>= f) source).result = (x source).result >>= fun a => (f a source).result := by
  show (Inquiry.bind x f source).result = _
  unfold Inquiry.bind
  cases (x source).result <;> rfl

/-- A sequence succeeds when both parts do. -/
theorem result_bind_eq_ok {x : Inquiry α} {f : α → Inquiry β} {b : β} :
    ((x >>= f) source).result = .ok b ↔ ∃ a, (x source).result = .ok a ∧ (f a source).result = .ok b := by
  rw [result_bind, bind_eq_ok]

theorem result_ofExcept (x : Except SearchError α) : (ofExcept x source).result = x := by
  cases x <;> rfl

/-- After a first part that succeeds, the questions of both parts were asked. -/
theorem asked_bind_ok {x : Inquiry α} {a : α} (f : α → Inquiry β) (h : (x source).result = .ok a) :
    ((x >>= f) source).asked = (x source).asked ++ (f a source).asked := by
  show (Inquiry.bind x f source).asked = _
  simp [Inquiry.bind, h]

/-- After a first part that fails, nothing more is asked. -/
theorem asked_bind_error {x : Inquiry α} {e : SearchError} (f : α → Inquiry β)
    (h : (x source).result = .error e) : ((x >>= f) source).asked = (x source).asked := by
  show (Inquiry.bind x f source).asked = _
  simp [Inquiry.bind, h]

end Inquiry
end TagSearch
