import NyanShopBot.Conc.Log
import NyanShopBot.Orchestrator.Viewer

/-!
# How a viewer goes on

`Watching` follows a viewer through its reads and prints: its cursor, the events that it has
read and not turned to, and the one that is due. Each part of `watch` hands on to the next a
viewer that is `Idle` at the cursor it passes, so that one that returns stands at the cursor
it returns, with nothing due (`watch_wp`).
-/

namespace NyanShopBot.Orchestrator

open Py Db Conc

/-! ## A viewer -/

structure Watching where
  args : WatchArgs
  opened : Bool
  cursor : Nat
  pending : List Activity
  due : Option Activity
  lost : Bool

/-- The role of the event is watched. -/
def watches (role : Str) (event : Activity) : Bool :=
  role = str "all" || match eventRole event with
    | .ok found => found = role
    | .error _ => false

namespace Watching

def start (args : WatchArgs) : Watching :=
  ⟨args, args.afterCursor.isSome, args.afterCursor.getD 0, [], none, false⟩

/-- What the viewer may do. -/
def ok (g : Watching) : ViewOp → Prop
  | .history runId limit => g.opened = false ∧ g.args.afterCursor = none ∧ 0 < g.args.history ∧
      runId = g.args.runId ∧ limit = g.args.history
  | .latestCursor runId => g.opened = false ∧ g.args.afterCursor = none ∧ g.args.history = 0 ∧
      runId = g.args.runId
  | .after runId cursor _ => g.opened = true ∧ g.pending = [] ∧ g.due = none ∧
      runId = g.args.runId ∧ cursor = g.cursor
  | .next event cursor => g.opened = true ∧ g.due = none ∧ (∃ rest, g.pending = event :: rest) ∧
      ∃ before ≤ g.cursor, cursor = event.cursor ∨ cursor = max before event.cursor
  | .show event => g.due = some event
  | _ => True

/-- The history that was read: the cursor is just before it. -/
def openedAt (g : Watching) (events : List Activity) : Watching :=
  { g with opened := true, cursor := (events.head?.map (·.cursor - 1)).getD 0, pending := events }

def turned (g : Watching) (event : Activity) (cursor : Nat) : Watching :=
  { g with cursor := cursor, pending := g.pending.tail,
           due := if watches g.args.role event then some event else none }

def next (g : Watching) : (op : ViewOp) → Except ViewExc op.Res → Watching
  | .history _ _, .ok events => g.openedAt events
  | .latestCursor _, .ok cursor => { g with opened := true, cursor := cursor }
  | .after _ _ _, .ok events => { g with pending := events }
  | .next event cursor, .ok _ => g.turned event cursor
  | .show _, .ok _ => { g with due := none }
  | .show _, .error .interrupt => { g with lost := true }
  | _, _ => g

end Watching

abbrev viewProtocol : Protocol viewSig ViewExc := ⟨Watching, Watching.ok, Watching.next⟩

/-- A viewer that has returned stands at its cursor, with nothing due. -/
def Returned (g : Watching) : Except ViewExc Nat → Prop
  | .ok cursor => g.opened = true ∧ cursor = g.cursor ∧ (g.due = none ∨ g.lost = true)
  | .error _ => True

/-- The viewer has handled what it has read. -/
def Idle (args : WatchArgs) (cursor : Nat) (g : Watching) : Prop :=
  g.args = args ∧ g.opened = true ∧ g.pending = [] ∧ g.due = none ∧ g.cursor = cursor

theorem eventRole_error {event : Activity} {e : ViewExc} (h : eventRole event = .error e) :
    e = .other := by
  unfold eventRole at h
  split at h
  · split at h <;> cases h <;> rfl
  · cases h

section

variable {g : Watching} {args : WatchArgs}

/-- What becomes of an event that the viewer has turned to. -/
def Shown (g : Watching) (g' : Watching) : Except ViewExc Unit → Prop
  | .ok _ => g' = { g with due := none }
  | .error .interrupt => g' = { g with lost := true }
  | .error .other => True

theorem show_wp {event : Activity} (hdue : g.due = some event) :
    wp viewProtocol (Shown g) g (view (.show event)) := by
  refine wp_perform.2 ⟨hdue, fun r => ?_⟩
  cases r with
  | ok => rfl
  | error e => cases e <;> trivial

/-- An event is printed where it is due, and nothing else is. -/
theorem showOne_wp {event : Activity}
    (hdue : g.due = if watches g.args.role event then some event else none) :
    wp viewProtocol (Shown g) g (showOne g.args.role event) := by
  unfold showOne
  refine wp_ite.2 ⟨fun hall => ?_, fun hall => ?_⟩
  · rw [watches, decide_eq_true hall, Bool.true_or, if_pos rfl] at hdue
    exact show_wp hdue
  · refine wp_bind.2 (wp_ofExcept.2 ?_)
    rw [watches, decide_eq_false hall, Bool.false_or] at hdue
    cases hrole : eventRole event with
    | error e =>
      rw [eventRole_error hrole]
      trivial
    | ok found =>
      rw [hrole] at hdue
      refine wp_ite.2 ⟨fun hfound => ?_, fun hfound => ?_⟩
      · rw [if_pos (by simpa using hfound)] at hdue
        exact show_wp hdue
      · rw [if_neg (by simpa using hfound)] at hdue
        show g = { g with due := none }
        rw [← hdue]

/-- The viewer has handled what it has read, or has raised. -/
def IdleAt (args : WatchArgs) (g : Watching) : Except ViewExc Nat → Prop
  | .ok cursor => Idle args cursor g
  | .error _ => True

theorem showEach_wp {move : Nat → Nat → Nat} (hmove : move = max ∨ move = fun _ c => c)
    {events : List Activity} : ∀ {g : Watching} {before : Nat}, g.args = args → g.opened = true →
      g.pending = events → g.due = none → before ≤ g.cursor → (events = [] → before = g.cursor) →
      wp viewProtocol (IdleAt args) g (showEach args.role move before events) := by
  induction events with
  | nil =>
    intro g before hargs hopened hpending hdue _ hcursor
    exact ⟨hargs, hopened, hpending, hdue, (hcursor rfl).symm⟩
  | cons event events ih =>
    intro g before hargs hopened hpending hdue hbefore _
    unfold showEach
    have hto : move before event.cursor = event.cursor ∨
        move before event.cursor = max before event.cursor := by
      rcases hmove with rfl | rfl
      · exact .inr rfl
      · exact .inl rfl
    refine wp_bind.2 (wp_perform.2
      ⟨⟨hopened, hdue, ⟨events, hpending⟩, before, hbefore, hto⟩, fun r => ?_⟩)
    cases r with
    | error e => trivial
    | ok =>
      have hshow := @showOne_wp (g.turned event (move before event.cursor)) event rfl
      have hrole : (g.turned event (move before event.cursor)).args.role = args.role :=
        congrArg WatchArgs.role hargs
      rw [hrole] at hshow
      refine wp_bind.2 (wp_mono (fun g' r hr => ?_) hshow)
      cases r with
      | error e => trivial
      | ok =>
        obtain rfl : g' = { g.turned event (move before event.cursor) with due := none } := hr
        exact ih hargs hopened (congrArg List.tail hpending) rfl (Nat.le_refl _) fun _ => rfl

theorem replay_wp (rounds : Nat) : ∀ {g : Watching} {remaining cursor : Nat},
    Idle args cursor g → wp viewProtocol (IdleAt args) g (replay args rounds remaining cursor) := by
  induction rounds with
  | zero =>
    intro g remaining cursor hg
    exact hg
  | succ rounds ih =>
    intro g remaining cursor hg
    obtain ⟨hargs, hopened, hpending, hdue, hcursor⟩ := hg
    unfold replay
    refine wp_ite.2 ⟨fun _ => ⟨hargs, hopened, hpending, hdue, hcursor⟩, fun _ => ?_⟩
    refine wp_bind.2 (wp_perform.2
      ⟨⟨hopened, hpending, hdue, congrArg _ hargs.symm, hcursor.symm⟩, fun r => ?_⟩)
    cases r with
    | error e => trivial
    | ok events =>
      refine wp_ite.2 ⟨fun hnone => ?_, fun _ => ?_⟩
      · exact ⟨hargs, hopened, List.isEmpty_iff.1 hnone, hdue, hcursor⟩
      · have hshown : wp viewProtocol (IdleAt args) { g with pending := events }
            (showEach args.role (fun _ c => c) cursor events) :=
          showEach_wp (.inr rfl) hargs hopened rfl hdue hcursor.symm.le fun _ => hcursor.symm
        refine wp_bind.2 (wp_mono (fun g' r hr => ?_) hshown)
        cases r with
        | error e => trivial
        | ok cursor' => exact ih hr

theorem opening_wp (args : WatchArgs) :
    wp viewProtocol (IdleAt args) (.start args) (opening args) := by
  unfold opening
  split
  · rename_i hafter
    have hclosed : (Watching.start args).opened = false := by
      simp [Watching.start, hafter]
    refine wp_ite.2 ⟨fun hsome => ?_, fun hnone => ?_⟩
    · refine wp_bind.2 (wp_perform.2 ⟨⟨hclosed, hafter, hsome, rfl, rfl⟩, fun r => ?_⟩)
      cases r with
      | error e => trivial
      | ok events =>
        refine showEach_wp (.inl rfl) (g := (Watching.start args).openedAt events) rfl rfl rfl rfl
          (Nat.zero_le _) fun hempty => ?_
        rw [hempty]
        rfl
    · have hzero : args.history = 0 := Nat.eq_zero_of_not_pos hnone
      refine wp_perform.2 ⟨⟨hclosed, hafter, hzero, rfl⟩, fun r => ?_⟩
      cases r with
      | error e => trivial
      | ok cursor => exact ⟨rfl, rfl, rfl, rfl, rfl⟩
  · rename_i cursor hafter
    refine replay_wp _ ⟨rfl, ?_, rfl, rfl, ?_⟩
    · simp [Watching.start, hafter]
    · simp [Watching.start, hafter]

/-! ## Following -/

/-- An operation leads to `f` of its result, and to nothing where it fails. -/
def LeadsTo {α : Type} (g : Watching) (f : α → Watching) (g' : Watching) : Except ViewExc α → Prop
  | .ok a => g' = f a
  | .error _ => g' = g

theorem close_wp {cursor : Nat} (hopened : g.opened = true) (hcursor : cursor = g.cursor)
    (hdue : g.due = none ∨ g.lost = true) : wp viewProtocol Returned g (close cursor) := by
  refine wp_bind.2 (wp_perform.2 ⟨trivial, fun r => ?_⟩)
  cases r with
  | error e => trivial
  | ok => exact ⟨hopened, hcursor, hdue⟩

/-- A part of the loop that ends in order, or is interrupted in order. -/
theorem orClose_wp {α : Type} {cursor : Nat} {p : Viewing α} {k : α → Viewing Nat}
    {Q : Watching → Except ViewExc α → Prop} (hp : wp viewProtocol Q g p)
    (hk : ∀ g' a, Q g' (.ok a) → wp viewProtocol Returned g' (k a))
    (hstop : ∀ g', Q g' (.error .interrupt) → g'.opened = true ∧ cursor = g'.cursor ∧
      (g'.due = none ∨ g'.lost = true)) :
    wp viewProtocol Returned g (orClose cursor p k) := by
  unfold orClose
  refine wp_bind.2 (wp_attempt.2 (wp_mono (fun g' r hr => ?_) hp))
  cases r with
  | ok a => exact hk g' a hr
  | error e =>
    cases e with
    | interrupt =>
      obtain ⟨hopened, hcursor, hdue⟩ := hstop g' hr
      exact close_wp hopened hcursor hdue
    | other => trivial

/-- An operation that does not move the viewer. -/
def isStill : ViewOp → Prop
  | .runs _ | .stateLine _ | .line _ | .monotonic | .sleep _ => True
  | _ => False

theorem isStill_ok {op : ViewOp} (h : isStill op) (g : Watching) :
    Watching.ok g op ∧ ∀ r, Watching.next g op r = g := by
  cases op <;> first | exact absurd h id | exact ⟨trivial, fun r => by cases r <;> rfl⟩

/-- A part of the loop that does not move the viewer. -/
theorem still_wp {α : Type} {cursor : Nat} {p : Viewing α} {k : α → Viewing Nat}
    (hg : Idle args cursor g) (hp : Calls isStill (fun _ => True) p)
    (hk : ∀ a, wp viewProtocol Returned g (k a)) :
    wp viewProtocol Returned g (orClose cursor p k) := by
  obtain ⟨-, hopened, -, hdue, hcursor⟩ := hg
  refine orClose_wp (Q := fun g' _ => g' = g)
    (wp_frame (fun op hop => isStill_ok hop g) (fun _ _ => rfl) hp) ?_ ?_
  · rintro _ a rfl
    exact hk a
  · rintro _ rfl
    exact ⟨hopened, hcursor.symm, .inl hdue⟩

/-- A program that goes on with what it reads without moving the viewer. -/
theorem still_bind {α : Type} {op : ViewOp} {k : op.Res → Viewing α} (hop : isStill op)
    (hk : ∀ a, Calls isStill (fun _ => True) (k a)) :
    Calls isStill (fun _ => True) (view op >>= k) := by
  refine wp_bind.2 (wp_perform.2 ⟨hop, fun r => ?_⟩)
  cases r with
  | error e => trivial
  | ok a => exact hk a

theorem showChanges_still (runs : List Str) : ∀ changed lastState,
    Calls isStill (fun _ => True) (showChanges changed lastState runs) := by
  induction runs with
  | nil =>
    intro changed lastState
    trivial
  | cons run runs ih =>
    intro changed lastState
    refine still_bind trivial fun line => wp_ite.2 ⟨fun _ => ih _ _, fun _ => ?_⟩
    exact still_bind trivial fun _ => ih _ _

theorem showLines_still (runs : List Str) :
    Calls isStill (fun _ => True) (showLines runs) := by
  induction runs with
  | nil => trivial
  | cons run runs ih => exact still_bind trivial fun _ => still_bind trivial fun _ => ih

theorem stateLines_still (runs : List Str) : ∀ lastState,
    Calls isStill (fun _ => True) (stateLines lastState runs) := by
  induction runs with
  | nil =>
    intro lastState
    trivial
  | cons run runs ih =>
    intro lastState
    exact still_bind trivial fun _ => ih _

theorem followEach_wp {k : Nat → Viewing Nat} (hk : ∀ {g : Watching} {cursor : Nat},
      Idle args cursor g → wp viewProtocol Returned g (k cursor)) {events : List Activity} :
    ∀ {g : Watching} {cursor : Nat}, g.args = args → g.opened = true → g.pending = events →
      g.due = none → g.cursor = cursor →
      wp viewProtocol Returned g (followEach args.role k cursor events) := by
  induction events with
  | nil =>
    intro g cursor hargs hopened hpending hdue hcursor
    exact hk ⟨hargs, hopened, hpending, hdue, hcursor⟩
  | cons event events ih =>
    intro g cursor hargs hopened hpending hdue hcursor
    unfold followEach
    have hmoved : wp viewProtocol (LeadsTo g fun _ => g.turned event event.cursor) g
        (view (.next event event.cursor)) := by
      refine wp_perform.2 ⟨⟨hopened, hdue, ⟨events, hpending⟩, g.cursor, Nat.le_refl _, .inl rfl⟩,
        fun r => ?_⟩
      cases r <;> rfl
    refine orClose_wp hmoved ?_ ?_
    · rintro _ ⟨⟩ rfl
      have hshow := @showOne_wp (g.turned event event.cursor) event rfl
      have hrole : (g.turned event event.cursor).args.role = args.role :=
        congrArg WatchArgs.role hargs
      rw [hrole] at hshow
      refine orClose_wp hshow ?_ ?_
      · rintro _ ⟨⟩ rfl
        exact ih hargs hopened (congrArg List.tail hpending) rfl rfl
      · rintro _ rfl
        exact ⟨hopened, rfl, .inr rfl⟩
    · rintro _ rfl
      exact ⟨hopened, hcursor.symm, .inl hdue⟩

theorem follow_wp (rounds : Nat) : ∀ {g : Watching} {lastState : List (Str × Str)}
    {lastActivityAt : ℚ} {cursor : Nat}, Idle args cursor g →
      wp viewProtocol Returned g (follow args rounds lastState lastActivityAt cursor) := by
  induction rounds with
  | zero =>
    intro g lastState lastActivityAt cursor _
    trivial
  | succ rounds ih =>
    intro g lastState lastActivityAt cursor hg
    obtain ⟨hargs, hopened, hpending, hdue, hcursor⟩ := hg
    have hg : Idle args cursor g := ⟨hargs, hopened, hpending, hdue, hcursor⟩
    have hcall {op : ViewOp} (hop : isStill op) :
        Calls isStill (fun _ => True) (view op) := calls_perform hop
    unfold follow
    have hread : wp viewProtocol (LeadsTo g fun events => { g with pending := events }) g
        (view (.after args.runId cursor 250)) := by
      refine wp_perform.2 ⟨⟨hopened, hpending, hdue, congrArg _ hargs.symm, hcursor.symm⟩,
        fun r => ?_⟩
      cases r <;> rfl
    refine orClose_wp hread ?_ ?_
    · rintro _ events rfl
      refine wp_ite.2 ⟨fun _ => ?_, fun hnone => ?_⟩
      · refine orClose_wp (Q := fun g' _ => g' = { g with pending := events })
          (wp_frame (fun op hop => isStill_ok hop _) (fun _ _ => rfl) (hcall trivial)) ?_ ?_
        · rintro _ now rfl
          exact followEach_wp ih hargs hopened rfl hdue hcursor
        · rintro _ rfl
          exact ⟨hopened, hcursor.symm, .inl hdue⟩
      · have hempty : events = [] := by
          simpa using hnone
        have hsame : Idle args cursor { g with pending := events } :=
          ⟨hargs, hopened, hempty, hdue, hcursor⟩
        refine still_wp hsame (hcall trivial) fun runs => ?_
        refine still_wp hsame (showChanges_still runs false lastState) fun _ => ?_
        refine still_wp hsame (hcall trivial) fun now => ?_
        refine wp_ite.2 ⟨fun _ => ?_, fun _ => ?_⟩
        · refine still_wp hsame (hcall trivial) fun _ => ?_
          exact still_wp hsame (hcall trivial) fun _ => ih hsame
        · exact still_wp hsame (hcall trivial) fun _ => ih hsame
    · rintro _ rfl
      exact ⟨hopened, hcursor.symm, .inl hdue⟩

theorem watch_wp (args : WatchArgs) (rounds : Nat) :
    wp viewProtocol Returned (.start args) (watch args rounds) := by
  unfold watch
  refine wp_bind.2 (wp_perform.2 ⟨trivial, fun r => ?_⟩)
  cases r with
  | error e => trivial
  | ok runs =>
    refine wp_ite.2 ⟨fun _ => trivial, fun _ => wp_bind.2 ?_⟩
    refine wp_frame (fun op hop => isStill_ok hop _) (fun r _ => ?_) (showLines_still runs)
    cases r with
    | error e => trivial
    | ok =>
      refine wp_bind.2 (wp_mono (fun g r hr => ?_) (opening_wp args))
      cases r with
      | error e => trivial
      | ok cursor =>
        obtain ⟨hargs, hopened, hpending, hdue, hcursor⟩ := hr
        refine wp_ite.2 ⟨fun _ => ?_, fun _ => ?_⟩
        · refine wp_bind.2 (wp_perform.2 ⟨trivial, fun r => ?_⟩)
          cases r with
          | error e => trivial
          | ok now =>
            refine wp_bind.2 (wp_frame (fun op hop => isStill_ok hop _) (fun r _ => ?_)
              (stateLines_still runs []))
            cases r with
            | error e => trivial
            | ok lastState => exact follow_wp rounds ⟨hargs, hopened, hpending, hdue, hcursor⟩
        · refine wp_bind.2 (wp_perform.2 ⟨trivial, fun r => ?_⟩)
          cases r with
          | error e => trivial
          | ok => exact ⟨hopened, hcursor.symm, .inl hdue⟩

end

/-! ## The calls of the system -/

/-- How a call begins; one that appends watches nothing. -/
def ViewCall.watching : ViewCall → Watching
  | .watch args _ => .start args
  | .append _ _ _ => .start ⟨none, [], 0, none, false, 0, 0⟩

/-- How a call ends. -/
def ViewCall.Ends (_ : ViewCall) (g : Watching) : Except ViewExc (Option Nat) → Prop
  | .ok (some cursor) => Returned g (.ok cursor)
  | _ => True

theorem ViewCall.body_wp (call : ViewCall) :
    wp viewProtocol call.Ends call.watching call.body := by
  cases call with
  | watch args rounds =>
    refine wp_bind.2 (wp_mono (fun g r hr => ?_) (watch_wp args rounds))
    cases r with
    | error e => trivial
    | ok cursor => exact hr
  | append runId kind payloadJson =>
    refine wp_bind.2 (wp_perform.2 ⟨trivial, fun r => ?_⟩)
    cases r <;> trivial

end NyanShopBot.Orchestrator
