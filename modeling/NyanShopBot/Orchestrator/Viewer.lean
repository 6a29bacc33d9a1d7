import NyanShopBot.Conc.System
import NyanShopBot.Db.Window
import NyanShopBot.Py.JsonLoads
import NyanShopBot.Py.JsonText

/-!
# The activity viewer

`watch` is `watch_activity` as a program over the runner state that it reads, what it prints
and the time that passes. `viewSystem` runs any number of viewers beside the runner, which
appends events. A viewer is interrupted only where the loop turns to an event or where it
waits, not while it prints one.
-/

namespace NyanShopBot.Orchestrator

open Py Db Conc

/-- What a viewer raises: a `KeyboardInterrupt` or anything else. -/
inductive ViewExc where
  | interrupt
  | other
deriving DecidableEq

/-! ## Events -/

/-- A row of `events`; the run that it names exists. -/
structure ActivityRow where
  eventId : Nat
  runId : Str
  kind : Str
  payloadJson : Str

/-- An event as the viewer handles it. -/
structure Activity where
  cursor : Nat
  kind : Str
  payload : List (Str × Json)

/-- `_event_row`. Only a `JSONDecodeError` is caught. -/
def eventRow (row : ActivityRow) : Except ViewExc Activity :=
  match Json.loads row.payloadJson with
  | .ok (.obj payload) => .ok ⟨row.eventId, row.kind, payload⟩
  | .ok _ | .error .decode => .ok ⟨row.eventId, row.kind, []⟩
  | .error .digits => .error .other

/-- `_event_role`. A list or an object cannot be looked up in a set. -/
def eventRole (event : Activity) : Except ViewExc Str :=
  if event.kind = str "agent.activity" then
    match Json.get event.payload (str "role") with
    | .str s => .ok (if s = str "worker" ∨ s = str "reviewer" then s else str "runner")
    | .arr _ | .obj _ => .error .other
    | _ => .ok (str "runner")
  else .ok (str "runner")

/-! ## The reader -/

/-- The row belongs to the selection. -/
def selects (runId : Option Str) (row : ActivityRow) : Bool := runId.all (row.runId = ·)

/-- The rows of the selection, in the order of their ids. -/
def selection (runId : Option Str) (events : List ActivityRow) : List ActivityRow :=
  events.filter (selects runId)

/-- `latest_cursor`. -/
def latestCursor (runId : Option Str) (events : List ActivityRow) : Nat :=
  lastKey ActivityRow.eventId (selection runId events)

/-- `history`. -/
def history (runId : Option Str) (limit : Nat) (events : List ActivityRow) :
    Except ViewExc (List Activity) :=
  let rows := selection runId events
  (rows.drop (rows.length - limit)).mapM eventRow

/-- `after`. -/
def after (runId : Option Str) (cursor limit : Nat) (events : List ActivityRow) :
    Except ViewExc (List Activity) :=
  ((above ActivityRow.eventId cursor (selection runId events)).take limit).mapM eventRow

/-! ## What a viewer does -/

inductive ViewOp where
  | runs (runId : Option Str)
  /-- The state line of a run, as its processes are now. -/
  | stateLine (runId : Str)
  | latestCursor (runId : Option Str)
  | history (runId : Option Str) (limit : Nat)
  | after (runId : Option Str) (cursor limit : Nat)
  /-- The loop turns to the event, and its cursor to `cursor`. -/
  | next (event : Activity) (cursor : Nat)
  /-- Print the event. -/
  | show (event : Activity)
  /-- Print anything else. -/
  | line (text : Str)
  | monotonic
  | sleep (seconds : ℚ)
  /-- What the runner does. -/
  | append (runId kind payloadJson : Str)

/-- A run is read as its id. -/
abbrev ViewOp.Res : ViewOp → Type
  | .runs _ => List Str
  | .stateLine _ => Str
  | .latestCursor _ => Nat
  | .history _ _ | .after _ _ _ => List Activity
  | .monotonic => ℚ
  | .next _ _ | .show _ | .line _ | .sleep _ | .append _ _ _ => Unit

abbrev viewSig : Sig := ⟨ViewOp, ViewOp.Res⟩

abbrev Viewing (α : Type) := Prog viewSig ViewExc α

abbrev view (op : ViewOp) : Viewing op.Res := Prog.perform (S := viewSig) op

/-- The arguments of `watch_activity`, as the command checks them. -/
structure WatchArgs where
  runId : Option Str
  role : Str
  history : Nat
  afterCursor : Option Nat
  follow : Bool
  pollSeconds : ℚ
  idleSeconds : ℚ
deriving DecidableEq

/-- Print the event where its role is watched. -/
def showOne (role : Str) (event : Activity) : Viewing Unit :=
  if role = str "all" then view (.show event)
  else do
    let found ← .ofExcept (eventRole event)
    if found = role then view (.show event) else return ()

/-- Print the events in turn; the cursor moves to each by `move`. -/
def showEach (role : Str) (move : Nat → Nat → Nat) (cursor : Nat) : List Activity → Viewing Nat
  | [] => return cursor
  | event :: events => do
    view (.next event (move cursor event.cursor))
    showOne role event
    showEach role move (move cursor event.cursor) events

/-- The events after the cursor, in batches; each round prints at least one. -/
def replay (args : WatchArgs) : (rounds remaining cursor : Nat) → Viewing Nat
  | 0, _, cursor => return cursor
  | rounds + 1, remaining, cursor =>
    if remaining = 0 then return cursor
    else do
      let events ← view (.after args.runId cursor (min remaining 250))
      if events.isEmpty then return cursor
      else do
        let cursor ← showEach args.role (fun _ c => c) cursor events
        replay args rounds (remaining - events.length) cursor

/-- What is printed before the viewer follows, and the cursor it has come to. -/
def opening (args : WatchArgs) : Viewing Nat :=
  match args.afterCursor with
  | none =>
    if 0 < args.history then do
      let events ← view (.history args.runId args.history)
      showEach args.role max 0 events
    else view (.latestCursor args.runId)
  | some cursor => replay args (max args.history 1) (max args.history 1) cursor

/-! ## Following -/

def closedText (cursor : Nat) : Str :=
  str "VIEWER_CLOSED cursor=" ++ natStr cursor ++ str "; worker was not signaled"

def stoppedText (cursor : Nat) : Str :=
  str "VIEWER_STOPPED cursor=" ++ natStr cursor ++ str "; no runner control was changed"

def idleText (cursor : Nat) : Str :=
  str "NO_NEW_ACTIVITY cursor=" ++ natStr cursor ++ str "; liveness is shown " ++
    str "separately above"

def close (cursor : Nat) : Viewing Nat := do
  view (.line (closedText cursor))
  return cursor

/-- A part of the loop, which an interrupt ends at the cursor. -/
def orClose {α : Type} (cursor : Nat) (p : Viewing α) (k : α → Viewing Nat) : Viewing Nat := do
  match ← p.attempt with
  | .ok a => k a
  | .error .interrupt => close cursor
  | .error e => .raise e

/-- Print the events in turn, and go on with the cursor they lead to. -/
def followEach (role : Str) (k : Nat → Viewing Nat) (cursor : Nat) : List Activity → Viewing Nat
  | [] => k cursor
  | event :: events =>
    orClose cursor (view (.next event event.cursor)) fun _ =>
      orClose event.cursor (showOne role event) fun _ =>
        followEach role k event.cursor events

/-- Print the state lines that have changed: what they are now, and whether one has. -/
def showChanges (changed : Bool) (lastState : List (Str × Str)) :
    List Str → Viewing (List (Str × Str) × Bool)
  | [] => return (lastState, changed)
  | run :: runs => do
    let line ← view (.stateLine run)
    if item? run lastState = some line then showChanges changed lastState runs
    else do
      view (.line line)
      showChanges true (setItem run line lastState) runs

/-- The loop of a viewer that follows; one that has not ended in so many rounds is still
running. -/
def follow (args : WatchArgs) : (rounds : Nat) → (lastState : List (Str × Str)) →
    (lastActivityAt : ℚ) → (cursor : Nat) → Viewing Nat
  | 0, _, _, _ => .raise .other
  | rounds + 1, lastState, lastActivityAt, cursor =>
    orClose cursor (view (.after args.runId cursor 250)) fun events =>
      if !events.isEmpty then
        orClose cursor (view .monotonic) fun now =>
          followEach args.role (follow args rounds lastState now) cursor events
      else
        orClose cursor (view (.runs args.runId)) fun runs =>
          orClose cursor (showChanges false lastState runs) fun state =>
            orClose cursor (view .monotonic) fun now =>
              if !state.2 && args.idleSeconds ≤ now - lastActivityAt then
                orClose cursor (view (.line (idleText cursor))) fun _ =>
                  orClose cursor (view (.sleep args.pollSeconds)) fun _ =>
                    follow args rounds state.1 now cursor
              else
                orClose cursor (view (.sleep args.pollSeconds)) fun _ =>
                  follow args rounds state.1 lastActivityAt cursor

def showLines : List Str → Viewing Unit
  | [] => return ()
  | run :: runs => do
    let line ← view (.stateLine run)
    view (.line line)
    showLines runs

def stateLines (lastState : List (Str × Str)) : List Str → Viewing (List (Str × Str))
  | [] => return lastState
  | run :: runs => do
    let line ← view (.stateLine run)
    stateLines (setItem run line lastState) runs

/-- `watch_activity`, as far as so many rounds of its loop. -/
def watch (args : WatchArgs) (rounds : Nat) : Viewing Nat := do
  let runs ← view (.runs args.runId)
  if runs.isEmpty then .raise .other
  else do
    showLines runs
    let cursor ← opening args
    if args.follow then do
      let now ← view .monotonic
      let lastState ← stateLines [] runs
      follow args rounds lastState now cursor
    else do
      view (.line (stoppedText cursor))
      return cursor

/-! ## The system -/

inductive ViewCall where
  | watch (args : WatchArgs) (rounds : Nat)
  | append (runId kind payloadJson : Str)

/-- A viewer returns its cursor. -/
def ViewCall.body : ViewCall → Viewing (Option Nat)
  | .watch args rounds => do
    return some (← Orchestrator.watch args rounds)
  | .append runId kind payloadJson => do
    view (.append runId kind payloadJson)
    return none

/-- What one step returns and leaves of the events: a read sees the events as they are, a
new event has an id that is greater than all, and nothing interrupts the printing of one.
Any step may fail. -/
def ViewEffect (events : List ActivityRow) :
    (op : ViewOp) → Except ViewExc op.Res → List ActivityRow → Prop
  | .latestCursor runId, r, events' =>
    events' = events ∧ (r = .ok (latestCursor runId events) ∨ ∃ e, r = .error e)
  | .history runId limit, r, events' =>
    events' = events ∧ (r = history runId limit events ∨ ∃ e, r = .error e)
  | .after runId cursor limit, r, events' =>
    events' = events ∧ (r = after runId cursor limit events ∨ ∃ e, r = .error e)
  | .show _, r, events' => events' = events ∧ r ≠ .error .interrupt
  | .append runId kind payloadJson, _, events' =>
    events' = events ∨ ∃ eventId, 0 < eventId ∧ (∀ row ∈ events, row.eventId < eventId) ∧
      events' = events ++ [⟨eventId, runId, kind, payloadJson⟩]
  | _, _, events' => events' = events

/-- **Any number of viewers beside the runner.** -/
abbrev viewSystem : System viewSig ViewExc where
  Store := List ActivityRow
  Call := ViewCall
  Out := Option Nat
  body := ViewCall.body
  eff := ViewEffect

end NyanShopBot.Orchestrator
