import Mathlib.Data.List.Basic

/-!
# Event logs

A `Reading` says what an event changes of the view of its key. `Reading.told` replays a
log. `Reading.Explains` is a step of a store that logs what it changes: it composes, and
along such steps the log keeps telling every view (`Explains.tells`).
-/

namespace Db

structure Reading (Event Key View : Type) where
  key : Event → Key
  start : View
  step : Event → View → View

namespace Reading

variable {Event Key View : Type} [DecidableEq Key] {R : Reading Event Key View}
  {log log' log'' : List Event} {view view' view'' : Key → View}

/-- What an event changes of the view of `k`. -/
def apply (R : Reading Event Key View) (k : Key) (v : View) (e : Event) : View :=
  if R.key e = k then R.step e v else v

/-- The view of `k` that the log tells. -/
def told (R : Reading Event Key View) (log : List Event) (k : Key) : View :=
  log.foldl (R.apply k) R.start

/-- The log is appended to, by events that make the change of every view. -/
def Explains (R : Reading Event Key View) (log : List Event) (view : Key → View)
    (log' : List Event) (view' : Key → View) : Prop :=
  ∃ events, log' = log ++ events ∧ ∀ k, view' k = events.foldl (R.apply k) (view k)

theorem apply_self {e : Event} (v : View) : R.apply (R.key e) v e = R.step e v := if_pos rfl

theorem apply_other {e : Event} {k : Key} (h : k ≠ R.key e) (v : View) : R.apply k v e = v :=
  if_neg h.symm

theorem Explains.nothing (hlog : log' = log) (hview : ∀ k, view' k = view k) :
    R.Explains log view log' view' :=
  ⟨[], by simp [hlog], hview⟩

theorem Explains.event (e : Event) (hlog : log' = log ++ [e])
    (hself : view' (R.key e) = R.step e (view (R.key e)))
    (hother : ∀ k, k ≠ R.key e → view' k = view k) : R.Explains log view log' view' := by
  refine ⟨[e], hlog, fun k => ?_⟩
  rw [List.foldl_cons, List.foldl_nil]
  by_cases hk : k = R.key e
  · rw [hk, hself, apply_self]
  · rw [hother k hk, apply_other hk]

/-- An event that changes no view. -/
theorem Explains.note (e : Event) (hlog : log' = log ++ [e]) (hstep : ∀ v, R.step e v = v)
    (hview : ∀ k, view' k = view k) : R.Explains log view log' view' :=
  .event e hlog ((hview _).trans (hstep _).symm) fun k _ => hview k

theorem Explains.trans (h : R.Explains log view log' view')
    (h' : R.Explains log' view' log'' view'') : R.Explains log view log'' view'' := by
  obtain ⟨es, rfl, hes⟩ := h
  obtain ⟨es', rfl, hes'⟩ := h'
  refine ⟨es ++ es', List.append_assoc .., fun k => ?_⟩
  rw [hes', hes, List.foldl_append]

/-- **A log that told every view still does.** -/
theorem Explains.tells (h : R.Explains log view log' view') (hlog : ∀ k, R.told log k = view k)
    (k : Key) : R.told log' k = view' k := by
  obtain ⟨es, rfl, hes⟩ := h
  rw [told, List.foldl_append, hes, ← hlog]
  rfl

end Reading

end Db
