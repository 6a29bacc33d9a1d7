import NyanShopBot.Khommo.OneDispatch

/-!
# An order is sent once

`OrderInv` is the invariant of one order over a run: one process holds it, at most
one request has been sent, and what is stored was read from the reply of the
holder. `sends_once` says what follows for every run of any number of calls.
-/

namespace NyanShopBot.Khommo

open Py Db Conc

variable {s₀ : Store} {tr l m : List AdapterTrans} {cfg : Cfg adapterSystem}

/-! ## Ghost states of a run -/

def Ghost.start (c : AdapterCall) : Ghost := ⟨c, .start⟩

def ghostOf (pid : Nat) (tr : List AdapterTrans) : Option Ghost :=
  ghost (A := adapterSystem) adapterProtocol Ghost.start pid tr

theorem ghostOf_snoc (pid : Nat) (tr : List AdapterTrans) (t : AdapterTrans) :
    ghostOf pid (tr ++ [t]) =
      ghostStep (A := adapterSystem) adapterProtocol Ghost.start pid (ghostOf pid tr) t.event :=
  ghost_snoc _ _ pid tr t

theorem ghostOf_act_self {pid : Nat} {op : AdapterOp} {r : Except Exc op.Res} {s s' : Store}
    {g : Ghost} (h : ghostOf pid tr = some g) :
    ghostOf pid (tr ++ [⟨s, .act pid op r, s'⟩]) = some (g.next op r) := by
  rw [ghostOf_snoc, h, ghostStep, if_pos rfl]
  rfl

theorem ghostOf_act_other {pid q : Nat} {op : AdapterOp} {r : Except Exc op.Res} {s s' : Store}
    (h : q ≠ pid) : ghostOf q (tr ++ [⟨s, .act pid op r, s'⟩]) = ghostOf q tr := by
  rw [ghostOf_snoc]
  exact ghostStep_other _ _ (Ne.symm h)

theorem ghostOf_start_other {pid q : Nat} {c : AdapterCall} {s : Store} (h : q ≠ pid) :
    ghostOf q (tr ++ [⟨s, .start pid c, s⟩]) = ghostOf q tr := by
  rw [ghostOf_snoc, ghostStep, if_neg (Ne.symm h)]

theorem ghostOf_crash {pid q : Nat} {s : Store} :
    ghostOf q (tr ++ [⟨s, .crash pid, s⟩]) = ghostOf q tr := by
  rw [ghostOf_snoc]
  rfl

/-! ## Holding an order -/

/-- The call has dispatched its order. -/
def Progress.holds : Progress → Bool
  | .start | .told _ => false
  | .won _ | .sent | .replied _ => true

def Ghost.Holds (g : Ghost) (id : Str) : Prop :=
  (∃ token, g.call = .createOnce token id) ∧ g.progress.holds = true

section

variable {g : Ghost} {id : Str} {op : AdapterOp} {r : Except Exc op.Res}

theorem Ghost.Holds.next (h : g.Holds id) (hok : g.ok op) : (g.next op r).Holds id := by
  refine ⟨by rw [Ghost.next_call]; exact h.1, ?_⟩
  have hm := g.moves op r
  generalize g.next op r = g' at hm
  cases hm with
  | stays => exact h.2
  | wins id body => rfl
  | tells id o =>
    have hstart := h.2
    rw [show g.progress = .start from hok.1] at hstart
    cases hstart
  | sends o req r => rfl
  | receives r => rfl

/-- A body waits for its request only in the call that has just dispatched it. -/
theorem Ghost.start_of_won {body : Bytes} (hok : g.ok op)
    (h : (g.next op r).progress = .won body) : g.progress = .start := by
  have hm := g.moves op r
  generalize g.next op r = g' at hm h
  cases hm with
  | stays op r =>
    cases op with
    | prepare id b => exact hok
    | dispatchOnce id => exact hok.1
    | state id => exact hok.1
    | observe id status =>
      obtain ⟨-, reply, hp, -⟩ := hok
      simp [hp] at h
  | wins id body => exact hok.1
  | tells id o => cases h
  | sends o req r => cases h
  | receives r => cases h

/-- A call that has its reply keeps it. -/
theorem Ghost.keeps_reply {reply : Except Exc KhoMmoResponse} (hp : g.progress = .replied reply)
    (hok : g.ok op) : (g.next op r).progress = .replied reply := by
  have hm := g.moves op r
  generalize g.next op r = g' at hm
  cases hm with
  | stays => exact hp
  | wins id' body => cases hp.symm.trans hok.1
  | tells id' o => cases hp.symm.trans hok.1
  | receives x => cases hp.symm.trans hok
  | sends o req x =>
    cases o with
    | none => cases hp.symm.trans hok.1
    | some id' =>
      obtain ⟨_, _, -, hp', -⟩ := hok
      cases hp.symm.trans hp'

/-- **How a call comes to hold an order**: it dispatches the prepared row. -/
theorem Ghost.Holds.of_next {s s' : Store} (h : (g.next op r).Holds id) (hok : g.ok op)
    (he : AdapterEffect s op r s') (hno : ¬ g.Holds id) :
    ∃ row, s.1.row? id = some row ∧ row.state = .prepared ∧ s'.1.row? id = some row.dispatched ∧
      (g.next op r).progress = .won row.body ∧ ∃ jop, op = .journal jop := by
  obtain ⟨token, hcall⟩ := h.1
  rw [Ghost.next_call] at hcall
  have hm := g.moves op r
  generalize g.next op r = g' at hm h
  cases hm with
  | stays => exact absurd h hno
  | wins id' body =>
    obtain ⟨-, token', hcall'⟩ := hok
    cases hcall.symm.trans hcall'
    obtain ⟨row, hrow, hst, rfl, hrow'⟩ := dispatchOnce_ok (effect_ok he)
    exact ⟨row, hrow, hst, hrow', rfl, _, rfl⟩
  | tells id o => cases h.2
  | sends o req r =>
    cases o with
    | none =>
      obtain ⟨-, token', orderNo, hcall', -⟩ := hok
      cases hcall.symm.trans hcall'
    | some id' =>
      obtain ⟨_, body, -, hp, -⟩ := hok
      exact absurd ⟨⟨token, hcall⟩, by rw [hp]; rfl⟩ hno
  | receives r => exact absurd ⟨⟨token, hcall⟩, by rw [show g.progress = .sent from hok]; rfl⟩ hno

end

/-! ## The invariant of an order -/

/-- A request was handed to the transport for the order. -/
def isPostOf (id : Str) : Event adapterSystem → Bool
  | .act _ (.send (some id') _) _ => id' = id
  | _ => false

def posts (id : Str) (tr : List AdapterTrans) : List AdapterTrans :=
  tr.filter fun t => isPostOf id t.event

theorem posts_snoc (id : Str) (tr : List AdapterTrans) (t : AdapterTrans) :
    posts id (tr ++ [t]) = if isPostOf id t.event then posts id tr ++ [t] else posts id tr := by
  unfold posts
  by_cases h : isPostOf id t.event <;> simp [h]

structure OrderInv (id : Str) (tr : List AdapterTrans) (s : Store) : Prop where
  named : ∀ {row}, s.1.row? id = some row → id ≠ [] ∧ isUtf8 id = true
  fresh : (∀ row, s.1.row? id = some row → row.state = .prepared) →
    ∀ {pid g}, ghostOf pid tr = some g → ¬ g.Holds id
  unique : ∀ {pid q g g'}, ghostOf pid tr = some g → ghostOf q tr = some g' → g.Holds id →
    g'.Holds id → pid = q
  body : ∀ {pid g body}, ghostOf pid tr = some g → g.Holds id → g.progress = .won body →
    ∃ row, s.1.row? id = some row ∧ row.body = body
  posted : ∀ {t pid req r}, t ∈ tr → t.event = .act pid (.send (some id) req) r →
    ∃ g, ghostOf pid tr = some g ∧ g.Holds id ∧ ∀ body, g.progress ≠ .won body
  single : (posts id tr).length ≤ 1
  status : ∀ {row n}, s.1.row? id = some row → row.httpStatus = some n →
    ∃ pid g response, ghostOf pid tr = some g ∧ g.Holds id ∧
      g.progress = .replied (.ok response) ∧ response.statusCode = n

theorem isPostOf_iff {id : Str} {e : Event adapterSystem} :
    isPostOf id e = true ↔ ∃ pid req r, e = .act pid (.send (some id) req) r := by
  constructor
  · intro h
    unfold isPostOf at h
    split at h
    · exact ⟨_, _, _, by rw [of_decide_eq_true h]⟩
    · cases h
  · rintro ⟨pid, req, r, rfl⟩
    simp [isPostOf]

/-- The answer of a transport that the row of an order holds came to its call. -/
theorem effect_status {s s' : Store} {op : AdapterOp} {r : Except Exc op.Res} {id : Str}
    {row : OrderRow} {n : Int} (he : AdapterEffect s op r s') (hrow : s'.1.row? id = some row)
    (hn : row.httpStatus = some n) :
    (∃ row', s.1.row? id = some row' ∧ row'.httpStatus = some n) ∨
      op = .journal (.observe id (some n)) := by
  rcases effect_row he id with hkeep | ⟨jop, rfl, hstep⟩
  · exact .inl ⟨row, hkeep ▸ hrow, hn⟩
  · rw [hrow] at hstep
    generalize s.1.row? id = o at hstep
    cases hstep with
    | prepared body => cases hn
    | dispatched row' hst => exact .inl ⟨row', rfl, hn⟩
    | observed row' status hst =>
      rw [OrderRow.observed, if_pos hst] at hn
      exact .inr (by rw [show status = some n from hn])

/-- A step that gives no process an order and sends nothing. -/
theorem OrderInv.frame {id : Str} {s : Store} {t : AdapterTrans} (h : OrderInv id tr s)
    (hpost : isPostOf id t.event = false)
    (hold : ∀ {q g}, ghostOf q (tr ++ [t]) = some g → g.Holds id → ghostOf q tr = some g)
    (hnew : ∀ {q g}, ghostOf q tr = some g → ghostOf q (tr ++ [t]) = some g) :
    OrderInv id (tr ++ [t]) s where
  named := h.named
  fresh hrow _ _ hg hh := h.fresh hrow (hold hg hh) hh
  unique hg hg' hh hh' := h.unique (hold hg hh) (hold hg' hh') hh hh'
  body hg hh := h.body (hold hg hh) hh
  posted {u pid req r} hu he := by
    rcases List.mem_append.1 hu with hu | hu
    · obtain ⟨g, hg, hh⟩ := h.posted hu he
      exact ⟨g, hnew hg, hh⟩
    · rw [List.mem_singleton.1 hu] at he
      rw [he] at hpost
      simp [isPostOf] at hpost
  single := by
    rw [posts_snoc, hpost]
    exact h.single
  status hrow hn := by
    obtain ⟨pid, g, response, hg, hh⟩ := h.status hrow hn
    exact ⟨pid, g, response, hnew hg, hh⟩

section

variable {id : Str} {s s' : Store} {pid : Nat} {g : Ghost} {op : AdapterOp} {r : Except Exc op.Res}

/-- A row that is still to be dispatched after a step was so before it. -/
theorem effect_fresh (he : AdapterEffect s op r s')
    (h : ∀ row, s'.1.row? id = some row → row.state = .prepared) :
    ∀ row, s.1.row? id = some row → row.state = .prepared := by
  intro row hrow
  rcases effect_row he id with hkeep | ⟨jop, rfl, hstep⟩
  · exact h row (hkeep ▸ hrow)
  · rw [hrow] at hstep
    generalize ho : s'.1.row? id = o at hstep
    cases hstep with
    | dispatched _ hst => exact hst
    | observed _ status hst =>
      have hst' := h _ ho
      rw [OrderRow.observed, if_pos hst] at hst'
      cases hst'

theorem effect_body (he : AdapterEffect s op r s') {row : OrderRow} (h : s.1.row? id = some row) :
    ∃ row', s'.1.row? id = some row' ∧ row'.body = row.body := by
  rcases effect_row he id with hkeep | ⟨jop, rfl, hstep⟩
  · exact ⟨row, hkeep ▸ h, rfl⟩
  · rw [h] at hstep
    exact hstep.body

/-- **A step in order keeps the invariant.** -/
theorem OrderInv.act (h : OrderInv id tr s) (hg : ghostOf pid tr = some g) (hok : g.ok op)
    (he : AdapterEffect s op r s') : OrderInv id (tr ++ [⟨s, .act pid op r, s'⟩]) s' := by
  have hself : ghostOf pid (tr ++ [⟨s, .act pid op r, s'⟩]) = some (g.next op r) :=
    ghostOf_act_self hg
  -- a holder after the step is one before it, or it dispatched the prepared row
  have hholder {q : Nat} {g' : Ghost} (hg' : ghostOf q (tr ++ [⟨s, .act pid op r, s'⟩]) = some g')
      (hh : g'.Holds id) : (∃ g₀, ghostOf q tr = some g₀ ∧ g₀.Holds id) ∨
        (q = pid ∧ ∃ row, s.1.row? id = some row ∧ row.state = .prepared ∧
          s'.1.row? id = some row.dispatched ∧ g'.progress = .won row.body) := by
    by_cases e : q = pid
    · subst e
      obtain rfl : g.next op r = g' := Option.some.inj (hself.symm.trans hg')
      by_cases hno : g.Holds id
      · exact .inl ⟨g, hg, hno⟩
      · obtain ⟨row, hrow, hst, hrow', hp, -⟩ := hh.of_next hok he hno
        exact .inr ⟨rfl, row, hrow, hst, hrow', hp⟩
    · exact .inl ⟨g', (ghostOf_act_other e).symm.trans hg', hh⟩
  have hfresh {row : OrderRow} (hrow : s.1.row? id = some row) (hst : row.state = .prepared)
      {q : Nat} {g' : Ghost} (hg' : ghostOf q tr = some g') : ¬ g'.Holds id :=
    h.fresh (fun row' hrow' => by rwa [Option.some.inj (hrow.symm.trans hrow')] at hst) hg'
  -- a process that has sent the request or has its reply goes on
  have hgoes {q : Nat} {g₀ : Ghost} (hg₀ : ghostOf q tr = some g₀) (hh : g₀.Holds id)
      (hw : ∀ body, g₀.progress ≠ .won body) :
      ∃ g', ghostOf q (tr ++ [⟨s, .act pid op r, s'⟩]) = some g' ∧ g'.Holds id ∧
        ∀ body, g'.progress ≠ .won body := by
    by_cases e : q = pid
    · subst e
      obtain rfl : g = g₀ := Option.some.inj (hg.symm.trans hg₀)
      refine ⟨_, hself, hh.next hok, fun body hp => ?_⟩
      have hstart := hh.2
      rw [Ghost.start_of_won hok hp] at hstart
      cases hstart
    · exact ⟨g₀, (ghostOf_act_other e).trans hg₀, hh, hw⟩
  refine ⟨?_, ?_, ?_, ?_, ?_, ?_, ?_⟩
  · intro row hrow
    rcases effect_row he id with hkeep | ⟨jop, rfl, hstep⟩
    · exact h.named (hkeep ▸ hrow)
    · generalize hs : s.1.row? id = o at hstep
      generalize s'.1.row? id = o' at hstep
      cases hstep with
      | prepared body hid hutf => exact ⟨hid, hutf⟩
      | dispatched row' _ => exact h.named hs
      | observed row' status _ => exact h.named hs
  · intro hrows q g' hg' hh
    rcases hholder hg' hh with ⟨g₀, hg₀, hh₀⟩ | ⟨-, row, -, -, hrow', -⟩
    · exact h.fresh (effect_fresh he hrows) hg₀ hh₀
    · cases hrows _ hrow'
  · intro p q g₁ g₂ h₁ h₂ hh₁ hh₂
    rcases hholder h₁ hh₁ with ⟨g₁', h₁', hh₁'⟩ | ⟨rfl, row, hrow, hst, -⟩
    · rcases hholder h₂ hh₂ with ⟨g₂', h₂', hh₂'⟩ | ⟨rfl, row, hrow, hst, -⟩
      · exact h.unique h₁' h₂' hh₁' hh₂'
      · exact absurd hh₁' (hfresh hrow hst h₁')
    · rcases hholder h₂ hh₂ with ⟨g₂', h₂', hh₂'⟩ | ⟨rfl, -⟩
      · exact absurd hh₂' (hfresh hrow hst h₂')
      · rfl
  · intro q g' body hg' hh hp
    by_cases e : q = pid
    · subst e
      obtain rfl : g.next op r = g' := Option.some.inj (hself.symm.trans hg')
      have hno : ¬ g.Holds id := fun hno => by
        have hstart := hno.2
        rw [Ghost.start_of_won hok hp] at hstart
        cases hstart
      obtain ⟨row, -, -, hrow', hp', -⟩ := hh.of_next hok he hno
      exact ⟨_, hrow', Progress.won.inj (hp'.symm.trans hp)⟩
    · obtain ⟨row, hrow, rfl⟩ := h.body ((ghostOf_act_other e).symm.trans hg') hh hp
      exact effect_body he hrow
  · intro t q req x ht hev
    rcases List.mem_append.1 ht with ht | ht
    · obtain ⟨g₀, hg₀, hh, hw⟩ := h.posted ht hev
      exact hgoes hg₀ hh hw
    · rw [List.mem_singleton.1 ht] at hev
      cases hev
      obtain ⟨token, body, hcall, hp, -⟩ := hok
      exact ⟨_, hself, ⟨⟨token, hcall⟩, rfl⟩, fun body h => by cases h⟩
  · rw [posts_snoc]
    by_cases hpost : isPostOf id (.act pid op r) = true
    · rw [if_pos hpost]
      obtain ⟨q, req, x, hev⟩ := isPostOf_iff.1 hpost
      cases hev
      obtain ⟨token, body, hcall, hp, -⟩ := hok
      -- the holder has sent nothing yet
      have hnil : posts id tr = [] := by
        refine List.filter_eq_nil_iff.2 fun t ht hpost => ?_
        obtain ⟨q, req', x', hev⟩ := isPostOf_iff.1 hpost
        obtain ⟨g', hg', hh, hw⟩ := h.posted ht hev
        obtain rfl := h.unique hg hg' ⟨⟨token, hcall⟩, by rw [hp]; rfl⟩ hh
        obtain rfl : g = g' := Option.some.inj (hg.symm.trans hg')
        exact hw body hp
      simp [hnil]
    · rw [if_neg hpost]
      exact h.single
  · intro row n hrow hn
    rcases effect_status he hrow hn with ⟨row', hrow', hn'⟩ | rfl
    · obtain ⟨q, g', response, hg', hh, hp, hs⟩ := h.status hrow' hn'
      by_cases e : q = pid
      · subst e
        obtain rfl : g = g' := Option.some.inj (hg.symm.trans hg')
        exact ⟨q, _, response, hself, hh.next hok, Ghost.keeps_reply hp hok, hs⟩
      · exact ⟨q, g', response, (ghostOf_act_other e).trans hg', hh, hp, hs⟩
    · have hok' := hok
      obtain ⟨hcall, reply, hp, hn'⟩ := hok'
      have hh : g.Holds id := ⟨hcall, by rw [hp]; rfl⟩
      cases reply with
      | error e => cases hn'
      | ok response =>
        exact ⟨pid, _, response, hself, hh.next hok, hp, (Option.some.inj hn').symm⟩

end

/-! ## Runs -/

abbrev AdapterRun := Run adapterSystem Store.empty

theorem OrderInv.run (h : AdapterRun tr cfg) (id : Str) : OrderInv id tr cfg.store := by
  refine Run.invariant (P := adapterProtocol) (i := Ghost.start) (Q := Reports)
    (J := fun tr (s : Store) => OrderInv id tr s) body_follows ?_ ?_ ?_ ?_ h
  · exact ⟨fun h => (by cases h), fun _ _ _ h => (by cases h), fun h => (by cases h),
      fun h => (by cases h), fun h => (by cases h), Nat.zero_le 1, fun h => (by cases h)⟩
  · intro tr cfg pid c hrun hp hi
    have hnone : ghostOf pid tr = none := hrun.ghost_none hp
    refine hi.frame rfl (fun {q g} hg hh => ?_) (fun {q g} hg => ?_)
    · by_cases e : q = pid
      · subst e
        rw [ghostOf_snoc, ghostStep, if_pos rfl] at hg
        cases hg
        cases hh.2
      · rwa [ghostOf_start_other e] at hg
    · have e : q ≠ pid := fun e => by rw [e, hnone] at hg; cases hg
      rwa [ghostOf_start_other e]
  · intro tr s pid hi
    exact hi.frame rfl (fun hg _ => ghostOf_crash.symm.trans hg) fun hg => ghostOf_crash.trans hg
  · intro tr s pid op r s' g hi hg hok he
    exact hi.act hg hok he

/-- The process was started with the call. -/
def Started (tr : List AdapterTrans) (pid : Nat) (c : AdapterCall) : Prop :=
  ∃ t ∈ tr, t.event = .start pid c

/-- A step of a run, with the store and the ghost state before it. -/
theorem act_ghost (h : AdapterRun tr cfg) {t : AdapterTrans} {pid : Nat} {op : AdapterOp}
    {r : Except Exc op.Res} (htr : tr = l ++ t :: m) (ht : t.event = .act pid op r) :
    ∃ cfg₀ g, AdapterRun l cfg₀ ∧ cfg₀.store = t.pre ∧ cfg₀.Live pid ∧ ghostOf pid l = some g ∧
      g.ok op ∧ Started l pid g.call ∧ AdapterEffect t.pre op r t.post := by
  obtain ⟨cfg₀, c, k, hr, hstore, hp, he⟩ := h.act_at htr ht
  obtain ⟨g, hg, hok⟩ := hr.act_ok (P := adapterProtocol) (i := Ghost.start) (Q := Reports)
    body_follows hp
  obtain ⟨g', hg', hcall⟩ := hr.ghost_call (P := adapterProtocol) (i := Ghost.start) (Q := Reports)
    (K := fun c g => g.call = c) body_follows (fun _ => rfl)
    (fun c g op r hc _ => show (g.next op r).call = c from (g.next_call op r).trans hc) hp
  obtain rfl : g = g' := Option.some.inj (hg.symm.trans hg')
  obtain ⟨t₀, ht₀, he₀⟩ := hr.started hp
  exact ⟨cfg₀, g, hr, hstore, ⟨c, op, k, hp⟩, hg, hok, ⟨t₀, ht₀, by rw [he₀, ← hcall]⟩, he⟩

/-- The step that fixes the body of an order: its first `prepare`. -/
def Fixes (id : Str) (body : Bytes) (t : AdapterTrans) : Prop :=
  (∃ pid r, t.event = .act pid (.journal (.prepare id body)) r) ∧ t.pre.1.row? id = none ∧
    t.post.1.row? id = some (.new id body)

theorem row_origin (h : AdapterRun tr cfg) {id : Str} {row : OrderRow}
    (hrow : cfg.store.1.row? id = some row) : ∃ p ∈ tr, Fixes id row.body p := by
  have hgrow {tr : List AdapterTrans} {body : Bytes} {t : AdapterTrans}
      (h : ∃ p ∈ tr, Fixes id body p) : ∃ p ∈ tr ++ [t], Fixes id body p := by
    obtain ⟨p, hp, hf⟩ := h
    exact ⟨p, List.mem_append_left _ hp, hf⟩
  refine Run.invariant (P := adapterProtocol) (i := Ghost.start) (Q := Reports)
    (J := fun tr (s : Store) => ∀ row, s.1.row? id = some row → ∃ p ∈ tr, Fixes id row.body p)
    body_follows (fun row h => by cases h) (fun _ _ hi row h => hgrow (hi row h))
    (fun hi row h => hgrow (hi row h)) ?_ h row hrow
  intro tr s pid op r s' g hi _ _ he row' hrow'
  rcases effect_row he id with hkeep | ⟨jop, rfl, hstep⟩
  · exact hgrow (hi row' (hkeep ▸ hrow'))
  · generalize hs : s.1.row? id = o at hstep
    rw [hrow'] at hstep
    generalize ho : some row' = o' at hstep
    cases hstep with
    | prepared body hid hutf =>
      cases ho
      exact ⟨_, List.mem_append_right _ List.mem_cons_self, ⟨pid, r, rfl⟩, hs, hrow'⟩
    | dispatched row _ =>
      cases ho
      exact hgrow (hi row hs)
    | observed row status _ =>
      cases ho
      rw [row.observed_body status]
      exact hgrow (hi row hs)

/-- **The body of an order does not change.** -/
theorem body_fixed {p : AdapterTrans} {id : Str} {body : Bytes} (h : AdapterRun (l ++ p :: m) cfg)
    (hp : Fixes id body p) :
    (∀ t ∈ m, ∃ row, t.pre.1.row? id = some row ∧ row.body = body) ∧
      ∃ row, cfg.store.1.row? id = some row ∧ row.body = body := by
  rw [show l ++ p :: m = (l ++ [p]) ++ m by simp] at h
  have hgrow {s s' : Store} {m : List AdapterTrans} (e : Event adapterSystem)
      (hi : (∀ u ∈ m, ∃ row, u.pre.1.row? id = some row ∧ row.body = body) ∧
        ∃ row, s.1.row? id = some row ∧ row.body = body) :
      ∀ u ∈ m ++ [⟨s, e, s'⟩], ∃ row, u.pre.1.row? id = some row ∧ row.body = body := by
    intro u hu
    rcases List.mem_append.1 hu with hu | hu
    · exact hi.1 u hu
    · obtain rfl := List.mem_singleton.1 hu
      exact hi.2
  refine Run.invariant_from (P := adapterProtocol) (i := Ghost.start) (Q := Reports)
    (J := fun (m : List AdapterTrans) (s : Store) =>
      (∀ t ∈ m, ∃ row, t.pre.1.row? id = some row ∧ row.body = body) ∧
        ∃ row, s.1.row? id = some row ∧ row.body = body) body_follows ?_
    (fun _ _ hi => ⟨hgrow _ hi, hi.2⟩) (fun hi => ⟨hgrow _ hi, hi.2⟩) ?_ h
  · rw [finalStore_snoc]
    exact ⟨fun t ht => absurd ht List.not_mem_nil, _, hp.2.2, rfl⟩
  · intro m cfg pid op r s' g _ hi _ _ he
    obtain ⟨row, hrow, rfl⟩ := hi.2
    exact ⟨hgrow _ hi, effect_body he hrow⟩

/-- What a call was told of an order once its request was sent. -/
theorem told_unknown {t : AdapterTrans} {pid : Nat} {id : Str} {req : OfflineOrderRequest}
    {r : Except Exc Unit} (h : AdapterRun (l ++ t :: m) cfg)
    (ht : t.event = .act pid (.send (some id) req) r) {q : Nat} {g : Ghost}
    {o : OrderObservation} (hq : ∃ u ∈ m, ∃ op x, u.event = .act q op x)
    (hg : ghostOf q (l ++ t :: m) = some g) (hcall : g.call.subject = some id)
    (hp : g.progress = .told o) : o.state = .unknownReconciling := by
  rw [show l ++ t :: m = (l ++ [t]) ++ m by simp] at h hg
  have hmem : t ∈ (l ++ [t]) := List.mem_append_right _ List.mem_cons_self
  refine Run.invariant_from (P := adapterProtocol) (i := Ghost.start) (Q := Reports)
    (J := fun (m : List AdapterTrans) (_ : Store) => ∀ q g o, (∃ u ∈ m, ∃ op x,
      u.event = .act q op x) → ghostOf q ((l ++ [t]) ++ m) = some g → g.call.subject = some id →
      g.progress = .told o → o.state = .unknownReconciling) body_follows ?_ ?_ ?_ ?_ h q g o hq hg
    hcall hp
  · rintro q g o ⟨u, hu, -⟩
    cases hu
  · rintro m cfg p c hrun hp hi q g o ⟨u, hu, op, x, he⟩ hg hcall hto
    rw [← List.append_assoc] at hg
    have hu' : u ∈ m := by
      rcases List.mem_append.1 hu with hu | hu
      · exact hu
      · rw [List.mem_singleton.1 hu] at he
        cases he
    by_cases e : q = p
    · subst e
      rw [ghostOf_snoc, ghostStep, if_pos rfl] at hg
      cases hg
      cases hto
    · rw [ghostOf_start_other e] at hg
      exact hi q g o ⟨u, hu', op, x, he⟩ hg hcall hto
  · rintro m s p hi q g o ⟨u, hu, op, x, he⟩ hg hcall hto
    rw [← List.append_assoc, ghostOf_crash] at hg
    refine hi q g o ⟨u, ?_, op, x, he⟩ hg hcall hto
    rcases List.mem_append.1 hu with hu | hu
    · exact hu
    · rw [List.mem_singleton.1 hu] at he
      cases he
  · rintro m cfg p op x s' g₀ hrun hi hg₀ hok he q g o ⟨u, hu, op', x', hev⟩ hg hcall hto
    rw [← List.append_assoc] at hg
    by_cases e : q = p
    · subst e
      rw [ghostOf_act_self hg₀] at hg
      obtain rfl : g₀.next op x = g := Option.some.inj hg
      rw [Ghost.next_call] at hcall
      have hm := g₀.moves op x
      generalize g₀.next op x = g' at hm hto
      cases hm with
      | stays jop x =>
        -- a call that was told does nothing more
        cases jop with
        | prepare id' b => cases hto.symm.trans hok
        | dispatchOnce id' => cases hto.symm.trans hok.1
        | state id' => cases hto.symm.trans hok.1
        | observe id' status =>
          obtain ⟨-, reply, hp', -⟩ := hok
          cases hto.symm.trans hp'
      | wins id' body => cases hto
      | tells id' o' =>
        cases hto
        obtain rfl : id' = id := Option.some.inj (hok.2.symm.trans hcall)
        rw [state_ok (effect_ok he)]
        -- the order is held, so its row was dispatched
        have hinv := OrderInv.run hrun id'
        obtain ⟨g', hg', hh, -⟩ := hinv.posted (List.mem_append_left m hmem) ht
        unfold observation
        split
        · next hrow => exact absurd hh (hinv.fresh (fun row h => by rw [hrow] at h; cases h) hg')
        · next row hrow =>
          split
          · next hst =>
            exact absurd hh (hinv.fresh (fun row' h => by
              rwa [← Option.some.inj (hrow.symm.trans h)]) hg')
          · rfl
      | sends o' req' x => cases hto
      | receives x => cases hto
    · rw [ghostOf_act_other e] at hg
      refine hi q g o ⟨u, ?_, op', x', hev⟩ hg hcall hto
      rcases List.mem_append.1 hu with hu | hu
      · exact hu
      · rw [List.mem_singleton.1 hu] at hev
        cases hev
        exact absurd rfl e

/-- The request of a call that holds its order and waits for the reply. -/
theorem sent_trace (h : AdapterRun tr cfg) {pid : Nat} {g : Ghost} {id : Str}
    (hg : ghostOf pid tr = some g) (hh : g.Holds id) (hp : g.progress = .sent) :
    ∃ u ∈ tr, ∃ req r, u.event = .act pid (.send (some id) req) r := by
  obtain ⟨l, t, m, op, r, g₀, rfl, ht, hg₀, hno, hh', hp'⟩ := ghost_switch (A := adapterSystem)
    (P := adapterProtocol) (i := Ghost.start)
    (K := fun g : Ghost => g.Holds id ∧ g.progress = .sent) (fun c h => by cases h.2) hg ⟨hh, hp⟩
  obtain ⟨cfg₀, g₁, -, -, -, hg₁, hok, -⟩ := act_ghost h rfl ht
  obtain rfl : g₀ = g₁ := Option.some.inj (hg₀.symm.trans hg₁)
  refine ⟨t, by simp, ?_⟩
  obtain ⟨token, hcall⟩ : ∃ token, g₀.call = .createOnce token id := by
    rw [← g₀.next_call op r]
    exact hh'.1
  replace hp' : (g₀.next op r).progress = .sent := hp'
  have hm := g₀.moves op r
  generalize g₀.next op r = g' at hm hp'
  cases hm with
  | stays =>
    exact absurd ⟨⟨⟨token, hcall⟩, by rw [hp']; rfl⟩, hp'⟩ hno
  | wins id body => cases hp'
  | tells id o => cases hp'
  | receives r => cases hp'
  | sends o req r =>
    cases o with
    | none =>
      obtain ⟨-, token', orderNo, hcall', -⟩ := hok
      cases hcall.symm.trans hcall'
    | some id' =>
      obtain ⟨token', body, hcall', -⟩ := hok
      cases hcall.symm.trans hcall'
      exact ⟨req, r, ht⟩

/-- A reply that a call has was received by it, for the request it had sent. -/
theorem replied_trace (h : AdapterRun tr cfg) {pid : Nat} {g : Ghost} {id : Str}
    {reply : Except Exc KhoMmoResponse} (hg : ghostOf pid tr = some g) (hh : g.Holds id)
    (hp : g.progress = .replied reply) :
    ∃ l t m, tr = l ++ t :: m ∧ t.event = .act pid .receive reply ∧
      ∃ u ∈ l, ∃ req r, u.event = .act pid (.send (some id) req) r := by
  obtain ⟨l, t, m, op, r, g₀, rfl, ht, hg₀, hno, hh', hp'⟩ := ghost_switch (A := adapterSystem)
    (P := adapterProtocol) (i := Ghost.start)
    (K := fun g : Ghost => g.Holds id ∧ g.progress = .replied reply) (fun c h => by cases h.2) hg
    ⟨hh, hp⟩
  obtain ⟨cfg₀, g₁, hr₀, -, -, hg₁, hok, -⟩ := act_ghost h rfl ht
  obtain rfl : g₀ = g₁ := Option.some.inj (hg₀.symm.trans hg₁)
  refine ⟨l, t, m, rfl, ?_⟩
  replace hh' : (∃ token, g₀.call = .createOnce token id) ∧ (g₀.next op r).progress.holds = true :=
    ⟨by rw [← g₀.next_call op r]; exact hh'.1, hh'.2⟩
  replace hp' : (g₀.next op r).progress = .replied reply := hp'
  have hm := g₀.moves op r
  generalize g₀.next op r = g' at hm hh' hp'
  cases hm with
  | stays => exact absurd ⟨⟨hh'.1, hh'.2⟩, hp'⟩ hno
  | wins id body => cases hp'
  | tells id o => cases hp'
  | sends o req r => cases hp'
  | receives r =>
    cases hp'
    exact ⟨ht, sent_trace hr₀ hg₀ ⟨hh'.1, by rw [show g₀.progress = .sent from hok]; rfl⟩ hok⟩

/-! ## What the journal guarantees -/

/-- **What holds over a run** `tr` that reaches `cfg`. -/
structure OrdersSentOnce (tr : List AdapterTrans) (cfg : Cfg adapterSystem) : Prop where
  /-- At most one order is sent for an operation. -/
  once : ∀ id, (posts id tr).length ≤ 1
  /-- An order is sent by a `create_once` of its operation; a lookup sends a `GET`. -/
  requests : ∀ {t pid o req r}, t ∈ tr → t.event = .act pid (.send o req) r →
    (∃ token id body, o = some id ∧ Started tr pid (.createOnce token id) ∧
      req = postRequest token body) ∨
    ∃ token orderNo, o = none ∧ Started tr pid (.getKnownOrderStatus token orderNo) ∧
      req = request token (str "GET") (ordersPath ++ str "/" ++ orderNo) []
  /-- It carries the body that the first `prepare` fixed, -/
  body : ∀ {l t m pid id req r}, tr = l ++ t :: m → t.event = .act pid (.send (some id) req) r →
    ∃ p ∈ l, Fixes id req.body p
  /-- which no later step changes. -/
  fixed : ∀ {l p m id body}, tr = l ++ p :: m → Fixes id body p →
    ∀ t ∈ m, ∃ row, t.pre.1.row? id = some row ∧ row.body = body
  /-- A call that reads the journal after the order was sent reports it as unknown. -/
  reported : ∀ {l t m pid id req r q c o}, tr = l ++ t :: m →
    t.event = .act pid (.send (some id) req) r → (∃ u ∈ m, ∃ op x, u.event = .act q op x) →
    Started tr q c → c.subject = some id → cfg.result? q = some (.ok (some o)) →
    o.state = .unknownReconciling
  /-- A stored status is the one of the response, -/
  status : ∀ {id row n}, cfg.store.1.row? id = some row → row.httpStatus = some n →
    ∃ l t m pid response, tr = l ++ t :: m ∧ t.event = .act pid .receive (.ok response) ∧
      response.statusCode = n ∧ ∃ u ∈ l, ∃ req r, u.event = .act pid (.send (some id) req) r
  /-- and a call receives one reply. -/
  received : ∀ {l t m pid r}, tr = l ++ t :: m → t.event = .act pid .receive r →
    ∀ u ∈ m, ∀ r', u.event ≠ .act pid .receive r'
  /-- Another body is refused, and the journal stays as it is. -/
  refused : ∀ {t pid id body r row}, t ∈ tr → t.event = .act pid (.journal (.prepare id body)) r →
    t.pre.1.row? id = some row → row.body ≠ body →
    (r = .error (.contract "Operation already has different order bytes") ∨
      ∃ e, r = .error e ∧ isFailure e = true) ∧ t.post = t.pre

/-- **An order is sent once**, over any run of any number of calls, crashes included. -/
theorem orders_sent_once (h : AdapterRun tr cfg) : OrdersSentOnce tr cfg where
  once id := (OrderInv.run h id).single
  requests {t pid o req r} ht he := by
    obtain ⟨l, m, rfl⟩ := List.append_of_mem ht
    obtain ⟨cfg₀, g, -, -, -, -, hok, ⟨u, hu, hev⟩, -⟩ := act_ghost h rfl he
    have hu' := List.mem_append_left (t :: m) hu
    cases o with
    | none =>
      obtain ⟨-, token, orderNo, hcall, hreq⟩ := hok
      exact .inr ⟨token, orderNo, rfl, ⟨u, hu', by rw [hev, hcall]⟩, hreq⟩
    | some id =>
      obtain ⟨token, body, hcall, -, hreq⟩ := hok
      exact .inl ⟨token, id, body, rfl, ⟨u, hu', by rw [hev, hcall]⟩, hreq⟩
  body {l t m pid id req r} htr he := by
    obtain ⟨cfg₀, g, hr₀, -, -, hg, hok, -⟩ := act_ghost h htr he
    obtain ⟨token, body, hcall, hp, rfl⟩ := hok
    obtain ⟨row, hrow, hbody⟩ :=
      (OrderInv.run hr₀ id).body hg ⟨⟨token, hcall⟩, by rw [hp]; rfl⟩ hp
    rw [show (postRequest token body).body = row.body from hbody.symm]
    exact row_origin hr₀ hrow
  fixed {l p m id body} htr hp := by
    subst htr
    exact (body_fixed h hp).1
  reported {l t m pid id req r q c o} htr he hq hstart hsub hres := by
    obtain ⟨c', hproc⟩ := Cfg.result?_eq hres
    obtain ⟨u, hu, hev⟩ := hstart
    obtain ⟨rest, hproc'⟩ := h.call_of_start hu hev
    obtain rfl : c' = c := congrArg Proc.call (Option.some.inj (hproc.symm.trans hproc'))
    obtain ⟨g, hg, hw⟩ := h.follows (P := adapterProtocol) (i := Ghost.start) (Q := Reports)
      body_follows hproc
    obtain ⟨g', hg', hcall⟩ := h.ghost_call (P := adapterProtocol) (i := Ghost.start)
      (Q := Reports) (K := fun c g => g.call = c) body_follows (fun _ => rfl)
      (fun c g op r hc _ => show (g.next op r).call = c from (g.next_call op r).trans hc) hproc
    obtain rfl : g = g' := Option.some.inj (hg.symm.trans hg')
    rcases wp_ofExcept.1 hw with hdone | htold
    · exact hdone
    · subst htr
      exact told_unknown h he hq hg (hcall ▸ hsub) htold
  status {id row n} hrow hn := by
    obtain ⟨pid, g, response, hg, hh, hp, hs⟩ := (OrderInv.run h id).status hrow hn
    obtain ⟨l, t, m, htr, he, hu⟩ := replied_trace h hg hh hp
    exact ⟨l, t, m, pid, response, htr, he, hs, hu⟩
  received {l t m pid r} htr he u hu r' hev := by
    obtain ⟨m₁, m₂, rfl⟩ := List.append_of_mem hu
    obtain ⟨cfg₀, g, hr₀, -, -, hg, hok, -⟩ := act_ghost h htr he
    have hu' : tr = (l ++ t :: m₁) ++ u :: m₂ := by simp [htr]
    obtain ⟨cfg₁, g₁, hr₁, -, -, hg₁, hok₁, -⟩ := act_ghost h hu' hev
    have hone : ghostOf pid (l ++ [t]) = some (g.next .receive r) := by
      rw [ghostOf_snoc, he, hg, ghostStep, if_pos rfl]
      rfl
    rw [show l ++ t :: m₁ = (l ++ [t]) ++ m₁ by simp] at hr₁ hg₁
    -- once it has its reply a call does not wait for another
    obtain ⟨g₂, hg₂, reply, hp⟩ :=
      Run.ghost_keeps (A := adapterSystem) (P := adapterProtocol) (i := Ghost.start)
      (Q := Reports) (K := fun g : Ghost => ∃ reply, g.progress = .replied reply) body_follows
      (by rintro g op r ⟨reply, hp⟩ hok; exact ⟨reply, Ghost.keeps_reply hp hok⟩) hr₁
      ⟨_, hone, r, rfl⟩
    obtain rfl : g₁ = g₂ := Option.some.inj (hg₁.symm.trans hg₂)
    cases hp.symm.trans hok₁
  refused {t pid id body r row} ht he hrow hne := by
    obtain ⟨l, m, rfl⟩ := List.append_of_mem ht
    obtain ⟨cfg₀, g, hr₀, hstore, -, -, -, -, heff⟩ := act_ghost h rfl he
    obtain ⟨hid, hutf⟩ := (OrderInv.run hr₀ id).named (hstore ▸ hrow)
    exact prepare_refused heff hid hutf hrow hne

/-! ## A run -/

def sampleToken : KhoMmoToken := ⟨str "synthetic-token", by decide⟩

def sampleOrder : CreateOrder := ⟨str "synthetic-product", 1, str "VND", by decide +kernel⟩

def sampleOperation : Str := str "local-operation-1"

/-- Every transaction commits; every order is answered with 502. -/
def sampleAnswer (s : Store) : (op : AdapterOp) → Except Exc op.Res × Store
  | .journal op => op.exec s
  | .send _ _ => (.ok (), s)
  | .receive => (.ok ⟨502, []⟩, s)

theorem sampleAnswer_effect (s : Store) (op : AdapterOp) :
    AdapterEffect s op (sampleAnswer s op).1 (sampleAnswer s op).2 := by
  cases op with
  | journal op => exact .inl rfl
  | send o req => exact ⟨rfl, rfl⟩
  | receive => rfl

/-- An order is prepared and created; a second call comes while the first waits. -/
def sampleMoves : List (Move adapterSystem) :=
  [.start 0 (.prepare sampleOperation sampleOrder), .go 0,
    .start 1 (.createOnce sampleToken sampleOperation), .go 1, .go 1,
    .start 2 (.createOnce sampleToken sampleOperation), .go 2, .go 2, .go 1, .go 1]

def sampleRun : List AdapterTrans × Cfg adapterSystem :=
  (replay adapterSystem sampleAnswer Store.empty sampleMoves).getD
    ([], ⟨Store.empty, fun _ => none⟩)

theorem sampleRun_run : AdapterRun sampleRun.1 sampleRun.2 := by
  unfold sampleRun
  cases h : replay adapterSystem sampleAnswer Store.empty sampleMoves with
  | none => exact .nil
  | some st => exact replay_run sampleAnswer_effect h

theorem orders_sent_once_sample :
    ((posts sampleOperation sampleRun.1).length = 1 ∧
      sampleRun.2.result? 1 = some (.ok (some ⟨.unknownReconciling, some 502⟩)) ∧
      sampleRun.2.result? 2 = some (.ok (some ⟨.unknownReconciling, none⟩)) ∧
      (sampleRun.2.store.1.row? sampleOperation).map (·.httpStatus) = some (some 502)) ∧
      OrdersSentOnce sampleRun.1 sampleRun.2 :=
  ⟨by decide +kernel, orders_sent_once sampleRun_run⟩

end NyanShopBot.Khommo
