import Mathlib.Data.List.Basic
import TagSearch.CountCache
import TagSearch.Store.Answer

/-! Histories of a cache: the calls of it with what they gave. The entry of the cache is what its history says of the
last read. -/
namespace TagSearch.CountCache

/-- A call. The clock may read anything, and every call may find the catalog in another state. -/
inductive Call
  | get (now : ℕ) (source : Source)
  | invalidate

/-- What the clock read. -/
def Call.reading? : Call → Option ℕ
  | get now _ => some now
  | invalidate => none

/-- A call and what it gave. -/
inductive Event
  | got (now : ℕ) (source : Source) (outcome : Outcome UInt64)
  | invalidated

/-- Make a call. If it fails, the cache stays as it was. -/
def perform (cache : CountCache) : Call → CountCache × Event
  | .get now source =>
    let outcome := cache.get now source
    match outcome.result with
    | .ok (count, next) => (next, .got now source ⟨.ok count, outcome.asked⟩)
    | .error error => (cache, .got now source ⟨.error error, outcome.asked⟩)
  | .invalidate => (cache.invalidate, .invalidated)

/-- Make calls in order. -/
def performAll (cache : CountCache) : List Call → CountCache × List Event
  | [] => (cache, [])
  | call :: rest =>
    let (next, event) := cache.perform call
    let (last, events) := next.performAll rest
    (last, event :: events)

/-- What the calls of a new cache give. -/
def history (lifetime : ℕ) (calls : List Call) : List Event := ((empty lifetime).performAll calls).2

namespace Event

def reading? : Event → Option ℕ
  | got now .. => some now
  | invalidated => none

/-- A count was read from the catalog. -/
def IsRead (event : Event) (count : UInt64) (now : ℕ) : Prop :=
  ∃ source, event = .got now source ⟨.ok count, [.totalImages]⟩ ∧ source.totalImages = .ok count

/-- The event leaves the last read as it is. -/
def IsQuiet (event : Event) : Prop := event ≠ .invalidated ∧ ∀ count now, ¬event.IsRead count now

end Event

/-- The last read of a history, if the cache was not told to forget it. -/
def LastRead (past : List Event) (count : UInt64) (readAt : ℕ) : Prop :=
  ∃ before event after, past = before ++ event :: after ∧ event.IsRead count readAt ∧ ∀ later ∈ after, later.IsQuiet

variable {past : List Event} {event : Event} {count : UInt64} {now readAt : ℕ}

lemma not_lastRead_nil : ¬LastRead [] count readAt := by
  rintro ⟨before, event, after, hpast, _⟩
  cases before <;> cases hpast

lemma lastRead_concat : LastRead (past ++ [event]) count readAt ↔
    event.IsRead count readAt ∨ event.IsQuiet ∧ LastRead past count readAt := by
  constructor
  · rintro ⟨before, read, after, hpast, hread, hafter⟩
    rcases List.eq_nil_or_concat after with rfl | ⟨rest, last, rfl⟩
    · obtain ⟨_, hevent⟩ := List.append_inj' hpast rfl
      cases hevent
      exact .inl hread
    · rw [List.concat_eq_append, ← List.cons_append, ← List.append_assoc] at hpast
      obtain ⟨rfl, hevent⟩ := List.append_inj' hpast rfl
      cases hevent
      rw [List.concat_eq_append, List.forall_mem_append] at hafter
      exact .inr ⟨hafter.2 _ (.head _), before, read, rest, rfl, hread, hafter.1⟩
  · rintro (hread | ⟨hquiet, before, read, after, rfl, hread, hafter⟩)
    · exact ⟨past, event, [], rfl, hread, by simp⟩
    · refine ⟨before, read, after ++ [event], by simp, hread, ?_⟩
      rw [List.forall_mem_append, List.forall_mem_singleton]
      exact ⟨hafter, hquiet⟩

variable {cache next : CountCache} {call : Call} {source : Source}

lemma fresh?_eq_some : cache.fresh? now = some count ↔
    ∃ readAt, cache.entry = some (count, readAt) ∧ now - readAt < cache.lifetime := by
  unfold fresh?
  split
  · rename_i stored storedAt hentry
    rw [hentry]
    split <;> simp_all
  · simp_all

/-- A call for the count is answered from the cache, or by a read that succeeds, or by one that fails. -/
lemma perform_get (cache : CountCache) (now : ℕ) (source : Source) :
    (∃ count, cache.fresh? now = some count ∧
      cache.perform (.get now source) = (cache, .got now source ⟨.ok count, []⟩)) ∨
    (∃ count, cache.fresh? now = none ∧ source.totalImages = .ok count ∧
      cache.perform (.get now source) =
        ({ cache with entry := some (count, now) }, .got now source ⟨.ok count, [.totalImages]⟩)) ∨
    (∃ error, cache.fresh? now = none ∧ source.totalImages = .error error ∧
      cache.perform (.get now source) = (cache, .got now source ⟨.error (.store error), [.totalImages]⟩)) := by
  cases hfresh : cache.fresh? now with
  | some count =>
    refine .inl ⟨count, rfl, ?_⟩
    rw [perform, get, hfresh]
    rfl
  | none =>
    right
    cases htotal : source.totalImages with
    | ok count =>
      have houtcome : cache.get now source =
          ⟨.ok (count, { cache with entry := some (count, now) }), [.totalImages]⟩ := by
        simp only [get, hfresh, bind, Inquiry.bind, Inquiry.totalImages, Inquiry.ask, htotal]
        rfl
      refine .inl ⟨count, rfl, rfl, ?_⟩
      rw [perform, houtcome]
    | error error =>
      have houtcome : cache.get now source = ⟨.error (.store error), [.totalImages]⟩ := by
        simp only [get, hfresh, bind, Inquiry.bind, Inquiry.totalImages, Inquiry.ask, htotal]
        rfl
      refine .inr ⟨error, rfl, rfl, ?_⟩
      rw [perform, houtcome]

/-- The entry of a cache is the last read of what it gave. -/
structure Remembers (cache : CountCache) (lifetime : ℕ) (past : List Event) : Prop where
  lifetime_eq : cache.lifetime = lifetime
  entry_iff : ∀ count readAt, cache.entry = some (count, readAt) ↔ LastRead past count readAt

variable {lifetime : ℕ}

lemma remembers_empty (lifetime : ℕ) : (empty lifetime).Remembers lifetime [] :=
  ⟨rfl, fun _ _ => iff_of_false nofun not_lastRead_nil⟩

lemma Remembers.perform (h : cache.Remembers lifetime past) (hperform : cache.perform call = (next, event)) :
    next.Remembers lifetime (past ++ [event]) := by
  cases call with
  | invalidate =>
    cases hperform
    refine ⟨h.lifetime_eq, fun count readAt => ?_⟩
    rw [lastRead_concat]
    simp [Event.IsRead, Event.IsQuiet, CountCache.invalidate]
  | get now source =>
    rcases perform_get cache now source with ⟨count, _, hget⟩ | ⟨count, _, htotal, hget⟩ | ⟨error, _, _, hget⟩
    · cases hget.symm.trans hperform
      refine ⟨h.lifetime_eq, fun count readAt => ?_⟩
      rw [lastRead_concat, h.entry_iff]
      simp [Event.IsRead, Event.IsQuiet]
    · cases hget.symm.trans hperform
      refine ⟨h.lifetime_eq, fun count readAt => ?_⟩
      rw [lastRead_concat]
      simp [Event.IsRead, Event.IsQuiet, htotal, and_comm]
    · cases hget.symm.trans hperform
      refine ⟨h.lifetime_eq, fun count readAt => ?_⟩
      rw [lastRead_concat, h.entry_iff]
      simp [Event.IsRead, Event.IsQuiet]

lemma performAll_cons (cache : CountCache) (call : Call) (rest : List Call) :
    cache.performAll (call :: rest) = (((cache.perform call).1.performAll rest).1,
      (cache.perform call).2 :: ((cache.perform call).1.performAll rest).2) := rfl

lemma performAll_append (cache : CountCache) (calls rest : List Call) :
    cache.performAll (calls ++ rest) = (((cache.performAll calls).1.performAll rest).1,
      (cache.performAll calls).2 ++ ((cache.performAll calls).1.performAll rest).2) := by
  induction calls generalizing cache with
  | nil => rfl
  | cons call calls ih => rw [List.cons_append, performAll_cons, performAll_cons, ih, List.cons_append]

lemma Remembers.performAll (h : cache.Remembers lifetime past) (calls : List Call) :
    (cache.performAll calls).1.Remembers lifetime (past ++ (cache.performAll calls).2) := by
  induction calls generalizing cache past with
  | nil => rwa [CountCache.performAll, List.append_nil]
  | cons call rest ih =>
    rw [performAll_cons, List.append_cons]
    exact ih (h.perform rfl)

lemma reading?_perform (cache : CountCache) (call : Call) : (cache.perform call).2.reading? = call.reading? := by
  cases call with
  | invalidate => rfl
  | get now source =>
    rcases perform_get cache now source with ⟨_, _, hget⟩ | ⟨_, _, _, hget⟩ | ⟨_, _, _, hget⟩ <;> rw [hget] <;> rfl

/-- A history keeps the readings of the clock in order. -/
lemma readings_performAll (cache : CountCache) (calls : List Call) :
    (cache.performAll calls).2.filterMap Event.reading? = calls.filterMap Call.reading? := by
  induction calls generalizing cache with
  | nil => rfl
  | cons call rest ih =>
    rw [performAll_cons, List.filterMap_cons, List.filterMap_cons, reading?_perform, ih]

lemma reading_of_lastRead (h : LastRead past count readAt) : readAt ∈ past.filterMap Event.reading? := by
  obtain ⟨before, event, after, rfl, ⟨source, rfl, _⟩, _⟩ := h
  exact List.mem_filterMap.mpr ⟨_, List.mem_append_right before (.head _), rfl⟩

lemma Remembers.fresh?_eq_some (h : cache.Remembers lifetime past) : cache.fresh? now = some count ↔
    ∃ readAt, LastRead past count readAt ∧ now - readAt < lifetime := by
  simp only [CountCache.fresh?_eq_some, h.entry_iff, h.lifetime_eq]

/-- What a call for the count gives after a history, and what it does if it fails. -/
lemma Remembers.perform_get (h : cache.Remembers lifetime past) (now : ℕ) (source : Source) :
    ∃ next outcome, cache.perform (.get now source) = (next, .got now source outcome) ∧
      (outcome.asked = [] ↔ ∃ count readAt, LastRead past count readAt ∧ now - readAt < lifetime) ∧
      (outcome.asked = [] → ∀ count readAt, LastRead past count readAt → outcome.result = .ok count) ∧
      (outcome.asked ≠ [] → outcome = ⟨source.totalImages.mapError .store, [.totalImages]⟩) ∧
      (outcome.result.isOk = false → next = cache) := by
  have hstale : cache.fresh? now = none → ¬∃ count readAt, LastRead past count readAt ∧ now - readAt < lifetime := by
    rintro hnone ⟨count, hlast⟩
    cases hnone.symm.trans (h.fresh?_eq_some.mpr hlast)
  rcases CountCache.perform_get cache now source with
    ⟨count, hfresh, hget⟩ | ⟨count, hnone, htotal, hget⟩ | ⟨error, hnone, htotal, hget⟩
  · obtain ⟨readAt, hlast, hage⟩ := h.fresh?_eq_some.mp hfresh
    refine ⟨_, _, hget, iff_of_true rfl ⟨count, readAt, hlast, hage⟩, fun _ other otherAt hother => ?_,
      fun hasked => (hasked rfl).elim, nofun⟩
    have hsame := ((h.entry_iff _ _).mpr hlast).symm.trans ((h.entry_iff _ _).mpr hother)
    cases hsame
    rfl
  · refine ⟨_, _, hget, iff_of_false (List.cons_ne_nil _ _) (hstale hnone), nofun, fun _ => ?_, nofun⟩
    rw [htotal]
    rfl
  · refine ⟨_, _, hget, iff_of_false (List.cons_ne_nil _ _) (hstale hnone), nofun, fun _ => ?_, fun _ => rfl⟩
    rw [htotal]
    rfl

/-- A count comes from the cache exactly when the last read is less than a lifetime old, and it is the count of that
read. Any other call asks the catalog once and gives its answer, and if that is an error, the calls that follow give
what they would have given without it. While the clock does not go back, a count was read just now, or since the cache
was last told to forget and less than a lifetime ago. -/
theorem count_of_lastRead (lifetime : ℕ) (before after : List Call) (now : ℕ) (source : Source) :
    ∃ outcome later, history lifetime (before ++ .get now source :: after) =
        history lifetime before ++ .got now source outcome :: later ∧
      (outcome.asked = [] ↔ ∃ count readAt, LastRead (history lifetime before) count readAt ∧ now - readAt < lifetime) ∧
      (outcome.asked = [] → ∀ count readAt, LastRead (history lifetime before) count readAt →
        outcome.result = .ok count) ∧
      (outcome.asked ≠ [] → outcome = ⟨source.totalImages.mapError .store, [.totalImages]⟩) ∧
      (outcome.result.isOk = false → history lifetime (before ++ after) = history lifetime before ++ later) ∧
      ((before.filterMap Call.reading? ++ [now]).Pairwise (· ≤ ·) → ∀ count, outcome.result = .ok count →
        source.totalImages = .ok count ∧ outcome.asked = [.totalImages] ∨
          ∃ readAt, LastRead (history lifetime before) count readAt ∧ readAt ≤ now ∧ now < readAt + lifetime) := by
  have hremembers := (remembers_empty lifetime).performAll before
  rw [List.nil_append] at hremembers
  obtain ⟨next, outcome, hget, hcached, hcount, hread, hfailed⟩ := hremembers.perform_get now source
  refine ⟨outcome, (next.performAll after).2, ?_, hcached, hcount, hread, fun herror => ?_, fun hclock count hok => ?_⟩
  · rw [history, performAll_append, performAll_cons, hget]
    rfl
  · rw [hfailed herror, history, performAll_append]
    rfl
  · by_cases hasked : outcome.asked = []
    · obtain ⟨read, readAt, hlast, hage⟩ := hcached.mp hasked
      have hsame := hok.symm.trans (hcount hasked read readAt hlast)
      cases hsame
      have hmem : readAt ∈ before.filterMap Call.reading? := by
        rw [← readings_performAll (empty lifetime)]
        exact reading_of_lastRead hlast
      have hle : readAt ≤ now := (List.pairwise_append.mp hclock).2.2 _ hmem _ (.head _)
      exact .inr ⟨readAt, hlast, hle, by omega⟩
    · obtain rfl := hread hasked
      refine .inl ⟨?_, rfl⟩
      cases htotal : source.totalImages with
      | ok total =>
        rw [htotal] at hok
        cases hok
        rfl
      | error error =>
        rw [htotal] at hok
        cases hok

/-- A read that fails is not remembered. When the clock goes back, the count of the read before it is fresh again. -/
example : history 5 [.get 10 (Database.ready .empty).source, .get 15 Database.blank.source,
      .get 12 Database.blank.source] =
    [.got 10 (Database.ready .empty).source ⟨.ok 0, [.totalImages]⟩,
      .got 15 Database.blank.source ⟨.error (.store (.database (.noSuchTable "images"))), [.totalImages]⟩,
      .got 12 Database.blank.source ⟨.ok 0, []⟩] := rfl

end TagSearch.CountCache
