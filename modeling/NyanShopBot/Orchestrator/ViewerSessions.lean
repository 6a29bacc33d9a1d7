import NyanShopBot.Orchestrator.ViewerRuns

/-!
# What viewers print

`shown` is what a viewer has printed and `windowIds` what there is to print between two
cursors. `Reads` ties a viewer to the events: it has printed the window between the cursor
that it started from and its own, but for the event that is due, and what it has read comes
next. A new event leaves this as it is (`Reads.grow`), and so does every step of a viewer
(`Follows.step`). A session thus prints its window (`session_shows`), and the windows of
sessions that resume one another are one (`sessions_show_once`).
-/

namespace NyanShopBot.Orchestrator

open Py Db Conc

/-! ## Windows of events -/

/-- The event belongs to the role. -/
def inRole (role : Str) (row : ActivityRow) : Bool :=
  role = str "all" || match eventRow row with
    | .ok event => watches role event
    | .error _ => false

/-- The ids of the events of the selection and the role after the cursor `a`, up to `c`. -/
def windowIds (runId : Option Str) (role : Str) (a c : Nat) (events : List ActivityRow) :
    List Nat :=
  ((window ActivityRow.eventId a c (selection runId events)).filter (inRole role)).map
    ActivityRow.eventId

/-- What was printed, as the id of an event. -/
def shownId : Act viewSig ViewExc → Option Nat
  | ⟨.show event, .ok _⟩ => some event.cursor
  | _ => none

/-- The ids of the events that a viewer has printed, in its order. -/
def shown (pid : Nat) (tr : List (Trans viewSystem)) : List Nat := (acts pid tr).filterMap shownId

/-- The cursor that a viewer starts from, where it looks at these events first: the given
one, the one before the history that it prints, or the latest. -/
def startingCursor (args : WatchArgs) (events : List ActivityRow) : Nat :=
  match args.afterCursor with
  | some cursor => cursor
  | none =>
    let rows := selection args.runId events
    if 0 < args.history then
      lastKey ActivityRow.eventId (rows.take (rows.length - args.history))
    else latestCursor args.runId events

/-- The viewer has looked at the events of `t` to start from there. -/
def looksAt (pid : Nat) (t : Trans viewSystem) : Prop :=
  (∃ runId limit events, t.event = .act pid (.history runId limit) (.ok events)) ∨
    ∃ runId cursor, t.event = .act pid (.latestCursor runId) (.ok cursor)

/-- The viewer has started from `a`. -/
def StartsAt (pid : Nat) (tr : List (Trans viewSystem)) (args : WatchArgs) (a : Nat) : Prop :=
  args.afterCursor = some a ∨
    args.afterCursor = none ∧ ∃ t ∈ tr, looksAt pid t ∧ a = startingCursor args t.pre

theorem StartsAt.snoc {pid a : Nat} {tr : List (Trans viewSystem)} {args : WatchArgs}
    (h : StartsAt pid tr args a) (t : Trans viewSystem) : StartsAt pid (tr ++ [t]) args a := by
  rcases h with h | ⟨hnone, u, hu, h⟩
  · exact .inl h
  · exact .inr ⟨hnone, u, List.mem_append_left _ hu, h⟩

theorem eventRow_cursor {row : ActivityRow} {event : Activity} (h : eventRow row = .ok event) :
    event.cursor = row.eventId := by
  unfold eventRow at h
  split at h <;> cases h <;> rfl

theorem inRole_eq {row : ActivityRow} {event : Activity} (h : eventRow row = .ok event)
    (role : Str) : inRole role row = watches role event := by
  unfold inRole
  rw [h]
  unfold watches
  simp

/-! ## A viewer and the events -/

/-- The events are in the order of their ids. -/
structure Stored (events : List ActivityRow) : Prop where
  ascending : Ascending ActivityRow.eventId events
  pos : ∀ row ∈ events, 0 < row.eventId

/-- An event may have been added behind all others. -/
def Grows (events events' : List ActivityRow) : Prop :=
  events' = events ∨ ∃ row, 0 < row.eventId ∧ (∀ old ∈ events, old.eventId < row.eventId) ∧
    events' = events ++ [row]

theorem ViewEffect.grows {events events' : List ActivityRow} {op : ViewOp}
    {r : Except ViewExc op.Res} (h : ViewEffect events op r events') : Grows events events' := by
  cases op with
  | append runId kind payloadJson =>
    rcases h with rfl | ⟨eventId, hpos, hlast, rfl⟩
    · exact .inl rfl
    · exact .inr ⟨_, hpos, hlast, rfl⟩
  | latestCursor | history | after | «show» => exact .inl h.1
  | _ => exact .inl h

theorem Stored.grow {events events' : List ActivityRow} (h : Stored events)
    (hg : Grows events events') : Stored events' := by
  rcases hg with rfl | ⟨row, hpos, hlast, rfl⟩
  · exact h
  · refine ⟨h.ascending.snoc hlast, fun x hx => ?_⟩
    rcases List.mem_append.1 hx with hx | hx
    · exact h.pos x hx
    · rw [List.mem_singleton.1 hx]
      exact hpos

theorem Stored.selection {events : List ActivityRow} (h : Stored events) (runId : Option Str) :
    Ascending ActivityRow.eventId (selection runId events) := h.ascending.filter _

/-- **A viewer that started from `a`** and has printed `printed`. -/
structure Reads (g : Watching) (a : Nat) (printed : List Nat) (events : List ActivityRow) :
    Prop where
  start_le : a ≤ g.cursor
  printed_eq : printed ++ g.due.toList.map Activity.cursor =
    windowIds g.args.runId g.args.role a g.cursor events
  ahead : ∃ rows rest, above ActivityRow.eventId g.cursor (selection g.args.runId events) =
    rows ++ rest ∧ List.Forall₂ (fun row event => eventRow row = .ok event) rows g.pending
  passed : g.cursor = a ∨ ∃ row ∈ events, g.cursor ≤ row.eventId

section

variable {g : Watching} {a : Nat} {printed : List Nat} {events events' : List ActivityRow}

theorem Reads.start (h : g.pending = []) (hdue : g.due = none) (hcursor : g.cursor = a) :
    Reads g a [] events where
  start_le := hcursor.symm.le
  printed_eq := by
    rw [hdue, hcursor, windowIds, window_self]
    rfl
  ahead := ⟨[], _, rfl, h ▸ .nil⟩
  passed := .inl hcursor

/-- A new event comes after all that the viewer has passed. -/
theorem Reads.grow (h : Reads g a printed events) (hg : Grows events events') :
    Reads g a printed events' := by
  rcases hg with rfl | ⟨row, -, hlast, rfl⟩
  · exact h
  have hbehind : g.cursor < row.eventId ∨ row.eventId ≤ a := by
    rcases h.passed with hc | ⟨x, hx, hle⟩
    · omega
    · exact .inl (Nat.lt_of_le_of_lt hle (hlast x hx))
  obtain ⟨rows, rest, hrows, hread⟩ := h.ahead
  by_cases hsel : selects g.args.runId row
  · have hsel :
        selection g.args.runId (events ++ [row]) = selection g.args.runId events ++ [row] := by
      rw [selection, List.filter_append, List.filter_cons_of_pos hsel]
      rfl
    refine ⟨h.start_le, ?_, ⟨rows, rest ++ above ActivityRow.eventId g.cursor [row], ?_, hread⟩, ?_⟩
    · rw [h.printed_eq, windowIds, windowIds, hsel, window_snoc hbehind]
    · rw [hsel, above_snoc, hrows, List.append_assoc]
    · exact h.passed.imp_right fun hp => by
        obtain ⟨x, hx, hle⟩ := hp
        exact ⟨x, List.mem_append_left _ hx, hle⟩
  · have hsel : selection g.args.runId (events ++ [row]) = selection g.args.runId events := by
      rw [selection, List.filter_append, List.filter_cons_of_neg hsel]
      exact List.append_nil _
    refine ⟨h.start_le, ?_, ⟨rows, rest, ?_, hread⟩, ?_⟩
    · rw [h.printed_eq, windowIds, windowIds, hsel]
    · rw [hsel, hrows]
    · exact h.passed.imp_right fun hp => by
        obtain ⟨x, hx, hle⟩ := hp
        exact ⟨x, List.mem_append_left _ hx, hle⟩

/-- **Turning to the next event** moves the cursor to it. -/
theorem Reads.turned (h : Reads g a printed events) (hs : Stored events) {event : Activity}
    {cursor : Nat} (hok : g.ok (.next event cursor)) :
    Reads (g.turned event cursor) a printed events := by
  obtain ⟨-, hdue, ⟨later, hpending⟩, before, hbefore, hcursor⟩ := hok
  obtain ⟨rows, rest, hrows, hread⟩ := h.ahead
  rw [hpending] at hread
  obtain ⟨row, next, hrow, hnext, rfl⟩ : ∃ row next, eventRow row = .ok event ∧
      List.Forall₂ (fun row event => eventRow row = .ok event) next later ∧
      rows = row :: next := by
    cases hread with
    | cons hrow hnext => exact ⟨_, _, hrow, hnext, rfl⟩
  obtain ⟨habove, hwindow, hlt, hmem⟩ := (hs.selection g.args.runId).above_cons hrows
  -- the event lies above the cursor, and so above anything that it has been
  obtain rfl : cursor = row.eventId := by
    have := eventRow_cursor hrow
    rcases hcursor with rfl | rfl
    · exact this
    · rw [this]
      omega
  have hle := h.start_le
  refine ⟨Nat.le_trans hle (Nat.le_of_lt hlt), ?_, ⟨next, rest, habove, ?_⟩, .inr ⟨row, ?_, ?_⟩⟩
  · have hprinted := h.printed_eq
    rw [hdue] at hprinted
    have hsplit := (hs.selection g.args.runId).window_append hle (Nat.le_of_lt hlt)
    rw [hwindow] at hsplit
    show printed ++ (if watches g.args.role event then some event else none).toList.map
      Activity.cursor = windowIds g.args.runId g.args.role a row.eventId events
    rw [windowIds, ← hsplit, List.filter_append, List.map_append]
    have hbefore : printed = windowIds g.args.runId g.args.role a g.cursor events := by
      rw [← hprinted]
      exact (List.append_nil _).symm
    rw [hbefore]
    refine congrArg _ ?_
    by_cases hw : watches g.args.role event = true
    · rw [if_pos hw, List.filter_cons_of_pos (by rw [inRole_eq hrow, hw])]
      exact congrArg (fun c => [c]) (eventRow_cursor hrow)
    · rw [if_neg hw, List.filter_cons_of_neg (by rw [inRole_eq hrow]; exact hw)]
      rfl
  · show List.Forall₂ _ next g.pending.tail
    rw [hpending]
    exact hnext
  · exact List.mem_of_mem_filter hmem
  · exact Nat.le_refl _

/-- Printing the event that is due. -/
theorem Reads.show (h : Reads g a printed events) {event : Activity} (hdue : g.due = some event) :
    Reads { g with due := none } a (printed ++ [event.cursor]) events where
  start_le := h.start_le
  printed_eq := by
    rw [← h.printed_eq, hdue]
    exact List.append_nil _
  ahead := h.ahead
  passed := h.passed

/-- Reading what comes after the cursor. -/
theorem Reads.after (h : Reads g a printed events) {limit : Nat} {read : List Activity}
    (hread : after g.args.runId g.cursor limit events = .ok read) :
    Reads { g with pending := read } a printed events where
  start_le := h.start_le
  printed_eq := h.printed_eq
  ahead := ⟨_, _, (List.take_append_drop limit _).symm, forall₂_of_mapM hread⟩
  passed := h.passed

/-- Reading the history: the viewer starts just before it. -/
theorem Reads.history (hs : Stored events) (hafter : g.args.afterCursor = none)
    (hhistory : 0 < g.args.history) {read : List Activity}
    (hread : history g.args.runId g.args.history events = .ok read) (hdue : g.due = none) :
    Reads (g.openedAt read) (startingCursor g.args events) [] events := by
  have hrows := forall₂_of_mapM hread
  have hstart : startingCursor g.args events = lastKey ActivityRow.eventId
      ((selection g.args.runId events).take
        ((selection g.args.runId events).length - g.args.history)) := by
    unfold startingCursor
    rw [hafter]
    exact if_pos hhistory
  rw [hstart]
  have hasc := hs.selection g.args.runId
  have hpos : ∀ row ∈ selection g.args.runId events, 0 < row.eventId :=
    fun row hrow => hs.pos row (List.mem_of_mem_filter hrow)
  have habove :=
    hasc.above_lastKey_take hpos ((selection g.args.runId events).length - g.args.history)
  cases read with
  | nil =>
    have hnone : (selection g.args.runId events).drop
        ((selection g.args.runId events).length - g.args.history) = [] :=
      List.forall₂_nil_right_iff.1 hrows
    have hempty : selection g.args.runId events = [] := by
      have := List.drop_eq_nil_iff.1 hnone
      exact List.length_eq_zero_iff.1 (by omega)
    refine Reads.start rfl hdue ?_
    rw [hempty, List.take_nil]
    rfl
  | cons event later =>
    obtain ⟨row, next, hrow, hnext, hdrop⟩ := List.forall₂_cons_right_iff.1 hrows
    rw [hdrop] at habove
    obtain ⟨hbefore, hwindow, hle⟩ := hasc.above_pred habove
    have hcursor : (g.openedAt (event :: later)).cursor = row.eventId - 1 :=
      congrArg (· - 1) (eventRow_cursor hrow)
    refine ⟨hcursor ▸ hle, ?_, ⟨row :: next, [], ?_, .cons hrow hnext⟩, .inr ⟨row, ?_, ?_⟩⟩
    · rw [hcursor, windowIds]
      show [] ++ g.due.toList.map Activity.cursor = _
      rw [hdue]
      show [] = ((window ActivityRow.eventId _ _ (selection g.args.runId events)).filter _).map _
      rw [hwindow]
      rfl
    · rw [hcursor, List.append_nil]
      exact hbefore
    · exact List.mem_of_mem_filter (List.mem_of_mem_drop (hdrop ▸ List.mem_cons_self))
    · rw [hcursor]
      exact Nat.sub_le _ _

end

/-! ## A viewer and the trace -/

section

variable {pid : Nat} {tr : List (Trans viewSystem)} {g : Watching}
  {events events' : List ActivityRow} {op : ViewOp} {r : Except ViewExc op.Res}

theorem shown_act : shown pid (tr ++ [⟨events, .act pid op r, events'⟩]) =
    shown pid tr ++ (shownId ⟨op, r⟩).toList := by
  rw [shown, acts_act_self, List.filterMap_append]
  refine congrArg _ ?_
  rw [List.filterMap_cons]
  cases shownId ⟨op, r⟩ <;> rfl

theorem shown_still (h : shownId ⟨op, r⟩ = none) :
    shown pid (tr ++ [⟨events, .act pid op r, events'⟩]) = shown pid tr := by
  rw [shown_act, h]
  exact List.append_nil _

/-- What a viewer has done, and the events as they are. -/
structure Follows (pid : Nat) (tr : List (Trans viewSystem)) (g : Watching)
    (events : List ActivityRow) : Prop where
  kept : g.lost = false
  closed : g.opened = false → shown pid tr = [] ∧ g.pending = [] ∧ g.due = none
  reads : g.opened = true → ∃ a, StartsAt pid tr g.args a ∧ Reads g a (shown pid tr) events

theorem Follows.start {args : WatchArgs} (h : shown pid tr = []) :
    Follows pid tr (.start args) events where
  kept := rfl
  closed _ := ⟨h, rfl, rfl⟩
  reads hopened := by
    obtain ⟨cursor, hafter⟩ := Option.isSome_iff_exists.1 hopened
    rw [h]
    refine ⟨cursor, .inl hafter, Reads.start rfl rfl ?_⟩
    show args.afterCursor.getD 0 = cursor
    rw [hafter]
    rfl

/-- A step at which the viewer does not move. -/
theorem Follows.keep (h : Follows pid tr g events) {t : Trans viewSystem}
    (hshown : shown pid (tr ++ [t]) = shown pid tr) (hg : Grows events events') :
    Follows pid (tr ++ [t]) g events' where
  kept := h.kept
  closed hclosed := by
    rw [hshown]
    exact h.closed hclosed
  reads hopened := by
    obtain ⟨a, hstart, hreads⟩ := h.reads hopened
    rw [hshown]
    exact ⟨a, hstart.snoc t, hreads.grow hg⟩

/-- A step of a viewer that has started, from where it has. -/
theorem Follows.move (h : Follows pid tr g events) (hopened : g.opened = true)
    (g' : Watching) (hargs : g'.args = g.args) (hstill : g'.opened = g.opened)
    (hkept : g'.lost = g.lost) {t : Trans viewSystem}
    (hreads : ∀ {a}, Reads g a (shown pid tr) events →
      Reads g' a (shown pid (tr ++ [t])) events) : Follows pid (tr ++ [t]) g' events where
  kept := hkept.trans h.kept
  closed hclosed := by
    rw [hstill, hopened] at hclosed
    cases hclosed
  reads _ := by
    obtain ⟨a, hstart, hread⟩ := h.reads hopened
    rw [hargs]
    exact ⟨a, hstart.snoc t, hreads hread⟩

/-- The step at which a viewer looks where to start. -/
theorem Follows.opens (h : Follows pid tr g events) (hclosed : g.opened = false)
    (hafter : g.args.afterCursor = none) (g' : Watching) (hargs : g'.args = g.args)
    (hopened : g'.opened = true) (hkept : g'.lost = g.lost) (hstill : shownId ⟨op, r⟩ = none)
    (hlooks : looksAt pid ⟨events, .act pid op r, events⟩)
    (hreads : g.due = none → Reads g' (startingCursor g.args events) [] events) :
    Follows pid (tr ++ [⟨events, .act pid op r, events⟩]) g' events where
  kept := hkept.trans h.kept
  closed hclosed' := by
    rw [hopened] at hclosed'
    cases hclosed'
  reads _ := by
    obtain ⟨hnothing, -, hdue⟩ := h.closed hclosed
    rw [shown_still hstill, hnothing, hargs]
    exact ⟨_, .inr ⟨hafter, _, List.mem_append_right _ List.mem_cons_self, hlooks, rfl⟩,
      hreads hdue⟩

/-- **Every step of a viewer** leaves it in order with the events. -/
theorem Follows.act (h : Follows pid tr g events) (hs : Stored events) (hok : g.ok op)
    (he : ViewEffect events op r events') :
    Follows pid (tr ++ [⟨events, .act pid op r, events'⟩]) (g.next op r) events' := by
  have hg : Grows events events' := he.grows
  cases op with
  | history runId limit =>
    cases r with
    | error e => exact h.keep (shown_still rfl) hg
    | ok read =>
      obtain ⟨hclosed, hafter, hhistory, rfl, rfl⟩ := hok
      obtain ⟨rfl, hread⟩ := he
      have hread : history g.args.runId g.args.history events' = .ok read := by
        rcases hread with hread | ⟨e, hread⟩
        · exact hread.symm
        · cases hread
      exact h.opens hclosed hafter (g.openedAt read) rfl rfl rfl rfl (.inl ⟨_, _, read, rfl⟩)
        (Reads.history hs hafter hhistory hread)
  | latestCursor runId =>
    cases r with
    | error e => exact h.keep (shown_still rfl) hg
    | ok cursor =>
      obtain ⟨hclosed, hafter, hhistory, rfl⟩ := hok
      obtain ⟨rfl, hread⟩ := he
      have hcursor : cursor = startingCursor g.args events' := by
        rcases hread with hread | ⟨e, hread⟩
        · unfold startingCursor
          rw [hafter]
          show cursor = if 0 < g.args.history then _ else latestCursor g.args.runId events'
          rw [if_neg (by omega)]
          exact Except.ok.inj hread
        · cases hread
      refine h.opens hclosed hafter { g with opened := true, cursor := cursor } rfl rfl rfl rfl
        (.inr ⟨_, cursor, rfl⟩) fun hdue => Reads.start (h.closed hclosed).2.1 hdue hcursor
  | after runId cursor limit =>
    cases r with
    | error e => exact h.keep (shown_still rfl) hg
    | ok read =>
      obtain ⟨hopened, -, -, rfl, rfl⟩ := hok
      obtain ⟨rfl, hread⟩ := he
      have hread : after g.args.runId g.cursor limit events' = .ok read := by
        rcases hread with hread | ⟨e, hread⟩
        · exact hread.symm
        · cases hread
      refine h.move hopened { g with pending := read } rfl rfl rfl fun hreads => ?_
      rw [shown_still rfl]
      exact hreads.after hread
  | next event cursor =>
    obtain rfl : events' = events := he
    cases r with
    | error e => exact h.keep (shown_still rfl) hg
    | ok =>
      refine h.move hok.1 (g.turned event cursor) rfl rfl rfl fun hreads => ?_
      rw [shown_still rfl]
      exact hreads.turned hs hok
  | «show» event =>
    obtain ⟨rfl, hr⟩ := he
    cases r with
    | error e =>
      cases e with
      | interrupt => exact absurd rfl hr
      | other => exact h.keep (shown_still rfl) hg
    | ok =>
      have hdue : g.due = some event := hok
      have hopened : g.opened = true := by
        by_contra hclosed
        have := (h.closed (by simpa using hclosed)).2.2
        rw [hdue] at this
        cases this
      refine h.move hopened { g with due := none } rfl rfl rfl fun hreads => ?_
      rw [shown_act]
      exact hreads.show hdue
  | runs | stateLine | line | monotonic | sleep | append =>
    cases r <;> exact h.keep (shown_still rfl) hg

end

/-! ## Runs -/

section

variable {tr : List (Trans viewSystem)} {cfg : Cfg viewSystem}

/-- The viewers and the events of a run. -/
structure Viewed (tr : List (Trans viewSystem)) (events : List ActivityRow) : Prop where
  stored : Stored events
  follows : ∀ {pid g}, ghost viewProtocol ViewCall.watching pid tr = some g →
    Follows pid tr g events

theorem run_viewed (h : Run viewSystem [] tr cfg) : Viewed tr cfg.store := by
  refine Run.invariant (P := viewProtocol) (i := ViewCall.watching)
    (Q := ViewCall.Ends) (J := Viewed) ViewCall.body_wp ⟨⟨.nil, ?_⟩, ?_⟩ ?_ ?_ ?_ h
  · intro row hrow
    cases hrow
  · intro pid g hg
    cases hg
  · rintro m cfg q call hrun hq ⟨hstored, hfollows⟩
    refine ⟨hstored, fun {pid g} hg => ?_⟩
    by_cases e : pid = q
    · subst e
      rw [ghost_start_self] at hg
      obtain rfl := Option.some.inj hg
      have hnothing : shown pid (m ++ [⟨cfg.store, .start pid call, cfg.store⟩]) = [] := by
        rw [shown, acts_start, Run.acts_none hrun hq]
        rfl
      cases call <;> exact Follows.start hnothing
    · rw [ghost_start_other e] at hg
      refine (hfollows hg).keep ?_ (.inl rfl)
      rw [shown, acts_start, shown]
  · rintro m s q ⟨hstored, hfollows⟩
    refine ⟨hstored, fun {pid g} hg => ?_⟩
    rw [ghost_crash] at hg
    refine (hfollows hg).keep ?_ (.inl rfl)
    rw [shown, acts_crash, shown]
  · rintro m s q op r s' g₀ ⟨hstored, hfollows⟩ hg₀ hok he
    have hgrows := ViewEffect.grows he
    refine ⟨hstored.grow hgrows, fun {pid g} hg => ?_⟩
    by_cases e : pid = q
    · subst e
      rw [ghost_act_self hg₀] at hg
      obtain rfl := Option.some.inj hg
      exact (hfollows hg₀).act hstored hok he
    · rw [ghost_act_other e] at hg
      refine (hfollows hg).keep ?_ hgrows
      rw [shown, acts_act_other e, shown]

/-- A viewer keeps its arguments. -/
theorem Watching.next_args (g : Watching) (op : ViewOp) (r : Except ViewExc op.Res) :
    (g.next op r).args = g.args := by
  cases op with
  | «show» event =>
    cases r with
    | ok => rfl
    | error e => cases e <;> rfl
  | _ => cases r <;> rfl

/-- The arguments of a viewer that has returned, and the cursor it returned. -/
def returned? (cfg : Cfg viewSystem) (pid : Nat) : Option (WatchArgs × Nat) :=
  match cfg.procs pid with
  | some ⟨.watch args _, some (.ret (some cursor))⟩ => some (args, cursor)
  | _ => none

theorem returned?_eq {pid : Nat} {args : WatchArgs} {cursor : Nat}
    (h : returned? cfg pid = some (args, cursor)) : ∃ rounds,
      cfg.procs pid = some ⟨.watch args rounds, some (.ret (some cursor))⟩ := by
  unfold returned? at h
  split at h
  · next rounds _ hp =>
    cases h
    exact ⟨rounds, hp⟩
  · cases h

/-- A session that has returned. -/
structure ViewSession (cfg : Cfg viewSystem) where
  pid : Nat
  args : WatchArgs
  cursor : Nat
  returned : returned? cfg pid = some (args, cursor)

/-- **A session prints its window**: the events between the cursor that it starts from and
the one that it returns. -/
theorem session_shows (h : Run viewSystem [] tr cfg) (s : ViewSession cfg) :
    ∃ a ≤ s.cursor, StartsAt s.pid tr s.args a ∧
      shown s.pid tr = windowIds s.args.runId s.args.role a s.cursor cfg.store := by
  obtain ⟨rounds, hp⟩ := returned?_eq s.returned
  obtain ⟨g, hg, hends⟩ := h.follows ViewCall.body_wp hp
  obtain ⟨g', hg', hargs⟩ := h.ghost_call (P := viewProtocol) (i := ViewCall.watching)
    (K := fun (call : ViewCall) g => g.args = call.watching.args) ViewCall.body_wp (fun _ => rfl)
    (fun call g op r hk _ => (g.next_args op r).trans hk) hp
  obtain rfl : g' = g := Option.some.inj (hg'.symm.trans hg)
  obtain ⟨hopened, hcursor, hdue⟩ : Returned g' (.ok s.cursor) := hends
  have hfollows := (run_viewed h).follows hg
  obtain ⟨a, hstart, hreads⟩ := hfollows.reads hopened
  have hargs : g'.args = s.args := hargs
  rw [hargs] at hstart
  have hdue : g'.due = none := by
    rcases hdue with hdue | hlost
    · exact hdue
    · rw [hfollows.kept] at hlost
      cases hlost
  refine ⟨a, hcursor ▸ hreads.start_le, hstart, ?_⟩
  have hprinted := hreads.printed_eq
  rw [hdue, hargs, ← hcursor] at hprinted
  rw [← hprinted]
  exact (List.append_nil _).symm

/-- `t` resumes `s`: it watches the same from the cursor that `s` has returned. -/
def Resumes (s t : ViewSession cfg) : Prop :=
  t.args.afterCursor = some s.cursor ∧ t.args.runId = s.args.runId ∧ t.args.role = s.args.role

theorem windowIds_append {events : List ActivityRow} (hs : Stored events) {a b c : Nat}
    (hab : a ≤ b) (hbc : b ≤ c) (runId : Option Str) (role : Str) :
    windowIds runId role a b events ++ windowIds runId role b c events =
      windowIds runId role a c events := by
  unfold windowIds
  rw [← List.map_append, ← List.filter_append, (hs.selection runId).window_append hab hbc]

theorem mem_windowIds {events : List ActivityRow} {a c id : Nat} {runId : Option Str} {role : Str} :
    id ∈ windowIds runId role a c events ↔ ∃ row ∈ events, selects runId row ∧ inRole role row ∧
      a < row.eventId ∧ row.eventId ≤ c ∧ row.eventId = id := by
  simp only [windowIds, List.mem_map, List.mem_filter, mem_window, selection]
  constructor
  · rintro ⟨row, ⟨⟨⟨hrow, hsel⟩, ha, hc⟩, hrole⟩, rfl⟩
    exact ⟨row, hrow, hsel, hrole, ha, hc, rfl⟩
  · rintro ⟨row, hrow, hsel, hrole, ha, hc, rfl⟩
    exact ⟨row, ⟨⟨⟨hrow, hsel⟩, ha, hc⟩, hrole⟩, rfl⟩

/-- The ids of a window go up. -/
theorem windowIds_sorted {events : List ActivityRow} (hs : Stored events) (runId : Option Str)
    (role : Str) (a c : Nat) : (windowIds runId role a c events).Pairwise (· < ·) :=
  List.pairwise_map.2 (((hs.selection runId).filter _).filter _)

/-- The cursor that the last of the sessions has returned. -/
def lastCursor (s : ViewSession cfg) (later : List (ViewSession cfg)) : Nat :=
  (later.getLast?.getD s).cursor

/-- Where a session resumes another, it starts from there. -/
theorem session_resumes (h : Run viewSystem [] tr cfg) {s t : ViewSession cfg} (hs : Resumes s t) :
    s.cursor ≤ t.cursor ∧ shown t.pid tr =
      windowIds s.args.runId s.args.role s.cursor t.cursor cfg.store := by
  obtain ⟨hafter, hrun, hrole⟩ := hs
  obtain ⟨a, hle, hstart, hshown⟩ := session_shows h t
  obtain rfl : a = s.cursor := by
    rcases hstart with hstart | ⟨hnone, -⟩
    · exact Option.some.inj (hstart.symm.trans hafter)
    · rw [hafter] at hnone
      cases hnone
  rw [hrun, hrole] at hshown
  exact ⟨hle, hshown⟩

/-- Sessions that resume one another print what one of them would. -/
theorem chain_shows (h : Run viewSystem [] tr cfg) (later : List (ViewSession cfg)) :
    ∀ {s : ViewSession cfg} {a : Nat}, a ≤ s.cursor →
      shown s.pid tr = windowIds s.args.runId s.args.role a s.cursor cfg.store →
      List.IsChain Resumes (s :: later) → s.cursor ≤ lastCursor s later ∧
        (s :: later).flatMap (shown ·.pid tr) =
          windowIds s.args.runId s.args.role a (lastCursor s later) cfg.store := by
  induction later with
  | nil =>
    intro s a _ hshown _
    rw [List.flatMap_cons, hshown]
    exact ⟨Nat.le_refl _, List.append_nil _⟩
  | cons t later ih =>
    intro s a ha hshown hchain
    obtain ⟨hresumes, hchain⟩ := List.isChain_cons_cons.1 hchain
    obtain ⟨hle, hnext⟩ := session_resumes h hresumes
    have hlast : lastCursor s (t :: later) = lastCursor t later := by
      simp [lastCursor, List.getLast?_cons]
    rw [← hresumes.2.1, ← hresumes.2.2] at hnext
    obtain ⟨hlater, hflat⟩ := ih hle hnext hchain
    rw [hresumes.2.1, hresumes.2.2] at hflat
    have hle := Nat.le_trans hle hlater
    rw [hlast]
    refine ⟨hle, ?_⟩
    rw [List.flatMap_cons, hflat, hshown]
    exact windowIds_append (run_viewed h).stored ha hle _ _

/-- **Sessions show each event once.** Over sessions that resume one another, whatever is
added meanwhile, what is printed is the events of the selection and the role after the
cursor that the first starts from, up to the one that the last returns, each once, in the
order of their ids. -/
theorem sessions_show_once (tr : List (Trans viewSystem)) (cfg : Cfg viewSystem)
    (h : Run viewSystem [] tr cfg) (s : ViewSession cfg) (later : List (ViewSession cfg))
    (hchain : List.IsChain Resumes (s :: later)) :
    ∃ a ≤ lastCursor s later, StartsAt s.pid tr s.args a ∧
      (∀ id, id ∈ (s :: later).flatMap (shown ·.pid tr) ↔
        ∃ row ∈ cfg.store, selects s.args.runId row ∧ inRole s.args.role row ∧
          a < row.eventId ∧ row.eventId ≤ lastCursor s later ∧ row.eventId = id) ∧
      ((s :: later).flatMap (shown ·.pid tr)).Pairwise (· < ·) := by
  obtain ⟨a, ha, hstart, hshown⟩ := session_shows h s
  obtain ⟨hle, hflat⟩ := chain_shows h later ha hshown hchain
  refine ⟨a, Nat.le_trans ha hle, hstart, fun id => ?_, ?_⟩
  · rw [hflat]
    exact mem_windowIds
  · rw [hflat]
    exact windowIds_sorted (run_viewed h).stored _ _ _ _

end

/-! ## A run -/

/-- Every operation succeeds, but an interrupt ends each sleep. -/
def viewAnswer (events : List ActivityRow) :
    (op : ViewOp) → Except ViewExc op.Res × List ActivityRow
  | .runs _ => (.ok [str "r"], events)
  | .stateLine _ => (.ok [], events)
  | .latestCursor runId => (.ok (latestCursor runId events), events)
  | .history runId limit => (history runId limit events, events)
  | .after runId cursor limit => (after runId cursor limit events, events)
  | .next _ _ | .show _ | .line _ => (.ok (), events)
  | .monotonic => (.ok 0, events)
  | .sleep _ => (.error .interrupt, events)
  | .append runId kind payloadJson =>
    if ∀ row ∈ events, row.eventId < events.length + 1 then
      (.ok (), events ++ [⟨events.length + 1, runId, kind, payloadJson⟩])
    else (.ok (), events)

theorem viewAnswer_effect (events : List ActivityRow) (op : ViewOp) :
    ViewEffect events op (viewAnswer events op).1 (viewAnswer events op).2 := by
  cases op with
  | append runId kind payloadJson =>
    unfold viewAnswer
    split_ifs with h
    · exact .inr ⟨_, Nat.succ_pos _, h, rfl⟩
    · exact .inl rfl
  | latestCursor | history | after => exact ⟨rfl, .inl rfl⟩
  | «show» => exact ⟨rfl, by rintro ⟨⟩⟩
  | _ => rfl

/-- One event of the run is there before the viewer, one comes while it follows, beside one
of another run, and one before it is resumed. -/
def viewMoves : List (Move viewSystem) :=
  let append (pid : Nat) (runId : Str) : List (Move viewSystem) :=
    [.start pid (.append runId (str "run.started") []), .go pid]
  let watch (pid : Nat) (args : WatchArgs) : List (Move viewSystem) := [.start pid (.watch args 9)]
  let go (pid n : Nat) : List (Move viewSystem) := List.replicate n (.go pid)
  append 0 (str "r") ++ watch 1 ⟨some (str "r"), str "all", 1, none, true, 1, 60⟩ ++ go 1 8 ++
    append 2 (str "q") ++ append 3 (str "r") ++ go 1 10 ++ append 4 (str "r") ++
    watch 5 ⟨some (str "r"), str "all", 10, some 3, false, 1, 60⟩ ++ go 5 8

def viewRun : List (Trans viewSystem) × Cfg viewSystem :=
  (Conc.replay viewSystem viewAnswer [] viewMoves).getD ([], ⟨[], fun _ => none⟩)

theorem viewRun_run : Run viewSystem [] viewRun.1 viewRun.2 := by
  unfold viewRun
  cases h : Conc.replay viewSystem viewAnswer [] viewMoves with
  | none => exact .nil
  | some st => exact replay_run viewAnswer_effect h

def firstSession : ViewSession viewRun.2 where
  pid := 1
  args := ⟨some (str "r"), str "all", 1, none, true, 1, 60⟩
  cursor := 3
  returned := by decide +kernel

def laterSession : ViewSession viewRun.2 where
  pid := 5
  args := ⟨some (str "r"), str "all", 10, some 3, false, 1, 60⟩
  cursor := 4
  returned := by decide +kernel

theorem sessions_show_once_sample :
    [firstSession, laterSession].flatMap (shown ·.pid viewRun.1) = [1, 3, 4] ∧
      [1, 3, 4].Pairwise (· < ·) := by
  have hshown : [firstSession, laterSession].flatMap (shown ·.pid viewRun.1) = [1, 3, 4] := by
    decide +kernel
  refine ⟨hshown, ?_⟩
  have hresumes : Resumes firstSession laterSession := ⟨rfl, rfl, rfl⟩
  obtain ⟨a, -, -, -, hsorted⟩ := sessions_show_once viewRun.1 viewRun.2 viewRun_run firstSession
    [laterSession] (List.isChain_cons_cons.2 ⟨hresumes, .singleton _⟩)
  rwa [hshown] at hsorted

end NyanShopBot.Orchestrator
