import TagSearch.Source

/-! The number of all images, remembered for a while. -/
namespace TagSearch

structure CountCache where
  /-- How long a count is remembered, in the unit of the clock. -/
  lifetime : Nat
  /-- The last count and when it was read. -/
  entry : Option (UInt64 × Nat)
deriving Repr, DecidableEq

namespace CountCache

def empty (lifetime : Nat) : CountCache := ⟨lifetime, none⟩

/-- The count that is still remembered at a time; a clock that went back has passed no time. -/
def fresh? (cache : CountCache) (now : Nat) : Option UInt64 :=
  match cache.entry with
  | some (count, readAt) => if now - readAt < cache.lifetime then some count else none
  | none => none

/-- The remembered count, or a new one from the source; a failure leaves the cache as it was. -/
def get (cache : CountCache) (now : Nat) : Inquiry (UInt64 × CountCache) :=
  match cache.fresh? now with
  | some count => pure (count, cache)
  | none => do
    let count ← Inquiry.totalImages
    return (count, { cache with entry := some (count, now) })

def invalidate (cache : CountCache) : CountCache := { cache with entry := none }

end CountCache
end TagSearch
