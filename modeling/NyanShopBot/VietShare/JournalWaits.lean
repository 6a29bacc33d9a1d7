import NyanShopBot.VietShare.JournalSafety

/-!
# Waiting in the journal

A response that asks to wait leaves a deadline with its operation. `Waits` is what
holds of a run from then on while the clock never goes back: no attempt begins
before the deadline, and until the journal has begun one nothing but the deadline
stands against it. `retry_waits`: every recorded response that asks to wait for some
time is waited for. Where it asks for none, `retry_after or 1.0` stores a deadline that
is not the one asked for (`deadline_eq_iff`).
-/

namespace NyanShopBot.VietShare

open Py Db Conc

/-! ## Deadlines -/

/-- The delay of a response that asks to wait, one second where it names none. -/
def delayOf (retry : Option PyFloat) : PyFloat := retry.getD (.finite 1)

theorem ofRat_ne_nan {q : ℚ} : PyFloat.ofRat q ≠ .nan := by
  unfold PyFloat.ofRat
  split_ifs <;> exact nofun

theorem ofInt_finite {n : Int} {x : PyFloat} (h : PyFloat.ofInt n = some x) :
    ∃ q, x = .finite q := by
  unfold PyFloat.ofInt at h
  split at h
  · next q _ => cases h; exact ⟨q, rfl⟩
  · cases h

theorem leInt_mono {x : PyFloat} {n k : Int} (h : x.leInt n = true) (hk : n ≤ k) :
    x.leInt k = true := by
  cases x with
  | finite q =>
    have hq : q ≤ n := by simpa [PyFloat.leInt] using h
    have hnk : (n : ℚ) ≤ k := by exact_mod_cast hk
    simpa [PyFloat.leInt] using hq.trans hnk
  | negInf => rfl
  | inf => cases h
  | nan => cases h

theorem max0_ne {x : PyFloat} : x.max0 ≠ .nan ∧ x.max0 ≠ .negInf := by
  cases x <;> exact ⟨nofun, nofun⟩

section

variable [Stdlib]

/-- A delay that was read is zero, positive or infinite. -/
theorem retryAfter_ne {headers : SensitiveHeaders} {now : PyNum} {x : PyFloat}
    (h : retryAfter headers now = some x) : x ≠ .nan ∧ x ≠ .negInf := by
  unfold retryAfter parseRetryAfter at h
  obtain ⟨v, -, h⟩ := Option.bind_eq_some_iff.1 h
  dsimp only at h
  split_ifs at h
  · unfold floatOfDigits at h
    split at h
    · obtain ⟨q, rfl⟩ := ofInt_finite h
      exact ⟨nofun, nofun⟩
    · cases h
  · obtain ⟨date, -, h⟩ := Option.bind_eq_some_iff.1 h
    obtain ⟨n, -, h⟩ := Option.bind_eq_some_iff.1 h
    obtain rfl := Option.some.inj h
    exact max0_ne

end

namespace Offline

/-- The stored deadline is a number. -/
theorem real_deadline [Stdlib] {headers : SensitiveHeaders} {receivedAt : Int} {d : PyFloat}
    (h : deadline receivedAt (retryAfter headers (.int receivedAt)) = .ok d) :
    real (some d) = some d := by
  unfold deadline at h
  split at h
  · cases h
  · next t ht =>
    cases h
    obtain ⟨q, rfl⟩ := ofInt_finite ht
    have hwait : waitSeconds (retryAfter headers (.int receivedAt)) ≠ .nan ∧
        waitSeconds (retryAfter headers (.int receivedAt)) ≠ .negInf := by
      cases hr : retryAfter headers (.int receivedAt) with
      | none => exact ⟨nofun, nofun⟩
      | some x =>
        unfold waitSeconds
        dsimp only
        split
        · exact ⟨nofun, nofun⟩
        · exact retryAfter_ne hr
    have hadd : (PyFloat.finite q).add (waitSeconds (retryAfter headers (.int receivedAt))) ≠
        .nan := by
      cases hw : waitSeconds (retryAfter headers (.int receivedAt)) with
      | finite y => exact ofRat_ne_nan
      | inf => exact nofun
      | negInf => exact absurd hw hwait.2
      | nan => exact absurd hw hwait.1
    cases hd : (PyFloat.finite q).add (waitSeconds (retryAfter headers (.int receivedAt))) with
    | nan => exact absurd hd hadd
    | finite y => rfl
    | inf => rfl
    | negInf => rfl

/-- The time of a response and the delay that it asks for, in double precision. -/
def dueAt (receivedAt : Int) (delay : PyFloat) : Option PyFloat :=
  (PyFloat.ofInt receivedAt).map (·.add delay)

theorem waitSeconds_of_ne {retry : Option PyFloat} (h : retry ≠ some (.finite 0)) :
    waitSeconds retry = delayOf retry := by
  cases retry with
  | none => rfl
  | some x => exact if_neg fun e => h (congrArg some e)

/-- The stored deadline is the time of the response and its delay, unless that is zero. -/
theorem dueAt_of_deadline {receivedAt : Int} {retry : Option PyFloat} {d : PyFloat}
    (h : deadline receivedAt retry = .ok d) (hretry : retry ≠ some (.finite 0)) :
    dueAt receivedAt (delayOf retry) = some d := by
  unfold deadline at h
  unfold dueAt
  split at h
  · cases h
  · next t ht =>
    rw [ht, Option.map_some, ← waitSeconds_of_ne hretry]
    exact congrArg some (Except.ok.inj h)

/-- **Whole seconds** are added without rounding. -/
theorem dueAt_whole {receivedAt n : Int} (ht : receivedAt.natAbs < 9007199254740992)
    (hsum : (receivedAt + n).natAbs < 9007199254740992) :
    dueAt receivedAt (.finite n) = some (.finite ((receivedAt + n : Int) : ℚ)) := by
  unfold dueAt PyFloat.ofInt
  rw [PyFloat.ofRat_intCast ht]
  show some (PyFloat.ofRat ((receivedAt : ℚ) + n)) = _
  rw [← Int.cast_add, PyFloat.ofRat_intCast hsum]

/-- **The deadline that is stored is the one asked for** exactly where a delay of zero is not
asked for. -/
theorem deadline_eq_iff {receivedAt : Int} (ht : receivedAt.natAbs < 9007199254740991)
    (retry : Option PyFloat) :
    (∃ d, deadline receivedAt retry = .ok d ∧ dueAt receivedAt (delayOf retry) = some d) ↔
      retry ≠ some (.finite 0) := by
  have hstored : PyFloat.ofInt receivedAt = some (.finite receivedAt) := by
    unfold PyFloat.ofInt
    rw [PyFloat.ofRat_intCast (by omega)]
  constructor
  · rintro ⟨d, hd, hdue⟩ rfl
    have hzero := @dueAt_whole receivedAt 0 (by omega) (by omega)
    have hone := @dueAt_whole receivedAt 1 (by omega) (by omega)
    have hwait : dueAt receivedAt (waitSeconds (some (.finite 0))) = some d := by
      unfold deadline at hd
      rw [hstored] at hd
      rw [dueAt, hstored]
      exact congrArg some (Except.ok.inj hd)
    rw [show waitSeconds (some (.finite 0)) = .finite ((1 : Int) : ℚ) by simp [waitSeconds],
      hone] at hwait
    rw [show delayOf (some (.finite 0)) = .finite ((0 : Int) : ℚ) by simp [delayOf], hzero,
      ← hwait] at hdue
    have hsame : ((receivedAt + 0 : Int) : ℚ) = ((receivedAt + 1 : Int) : ℚ) := by
      injection hdue with hdue
      injection hdue
    have := Int.cast_injective hsame
    omega
  · intro hretry
    cases hd : deadline receivedAt retry with
    | error e =>
      unfold deadline at hd
      rw [hstored] at hd
      cases hd
    | ok d => exact ⟨d, rfl, dueAt_of_deadline hd hretry⟩

/-! ## Waiting in the journal -/

section

variable [Stdlib] [Hashlib]
variable {s₀ : JournalDb} {tr l m : List AdapterTrans} {cfg : Cfg adapterSystem} {id : Str}
  {d : PyFloat}

/-- The clock of the journal never goes back. -/
abbrev ClockForward (tr : List AdapterTrans) : Prop := Forward JournalDb.clock tr

/-- What a process has read of the clock. -/
def Phase.HasRead (g : Phase) (n : Int) : Prop := g.now = some n ∨ g.receipt = some n

omit [Stdlib] [Hashlib] in
theorem hasRead_next {g : Phase} {op : AdapterOp} {r : Except Exc op.Res} {n : Int}
    (h : (g.next op r).HasRead n) :
    g.HasRead n ∨ (op = .clock ∧ r ≍ (.ok n : Except Exc Int)) := by
  have hm := g.moves op r
  generalize g.next op r = g' at hm h
  cases hm with
  | reads t =>
    unfold Phase.read at h
    split at h
    · rcases h with h | h
      · exact .inl (.inl h)
      · cases h; exact .inr ⟨rfl, HEq.rfl⟩
    · rcases h with h | h
      · cases h; exact .inr ⟨rfl, HEq.rfl⟩
      · exact .inl (.inr h)
  | _ => exact .inl h

/-- **No process has read a time after the clock.** -/
theorem hasRead_le (h : Run adapterSystem s₀ tr cfg) (hf : ClockForward tr) {pid : Nat} {g : Phase}
    {n : Int} (hg : phase pid tr = some g) (hn : g.HasRead n) : n ≤ cfg.store.clock := by
  refine Run.invariant (P := adapterProtocol) (Q := fun _ _ _ => True)
    (J := fun tr (s : JournalDb) => ClockForward tr → ∀ g n, phase pid tr = some g → g.HasRead n →
      n ≤ s.clock) body_follows (fun _ g n hg => by cases hg) ?_ ?_ ?_ h hf g n hg hn
  · intro tr cfg q c _ _ hi hf g n hg hn
    rw [phase_snoc] at hg
    by_cases e : q = pid
    · rw [ghostStep, if_pos e] at hg
      cases hg
      rcases hn with hn | hn <;> cases hn
    · rw [ghostStep, if_neg e] at hg
      exact hi hf.left g n hg hn
  · intro tr s q hi hf g n hg hn
    exact hi hf.left g n (by rw [← hg, phase_snoc]; rfl) hn
  · intro tr s q op r s' g₀ hi hg₀ _ he hf g n hg hn
    have hle : s.clock ≤ s'.clock := hf.last
    rw [phase_snoc] at hg
    by_cases e : q = pid
    · subst e
      rw [ghostStep, if_pos rfl, show phase q tr = some g₀ from hg₀] at hg
      cases hg
      rcases hasRead_next hn with hn | ⟨rfl, hr⟩
      · exact (hi hf.left g₀ n hg₀ hn).trans hle
      · cases hr
        exact le_of_eq (he.2 n rfl).symm
    · rw [ghostStep_other _ _ e] at hg
      exact (hi hf.left g n hg hn).trans hle

/-- An attempt of `id` has begun after `d`, and its transaction has given out the row. -/
def BegunAfter (id : Str) (d : PyFloat) (m : List AdapterTrans) : Prop :=
  ∃ t ∈ m, ∃ pid now r record, t.event = .act pid (.journal (.beginAttempt id now)) r ∧
    (JournalOp.beginAttempt id now).exec t.pre.tables = (.ok (some record), t.post.tables) ∧
    d.leInt now = true ∧ now ≤ t.pre.clock

omit [Stdlib] [Hashlib] in
/-- An attempt that has changed the tables has given out its row. -/
theorem begin_commits {s s' : JournalDb} {now : Int} {r : Except Exc (Option PreparedWrite)}
    (he : AdapterEffect s (.journal (.beginAttempt id now)) r s') (hne : s'.tables ≠ s.tables) :
    ∃ record, (JournalOp.beginAttempt id now).exec s.tables = (.ok (some record), s'.tables) := by
  have hexec : s'.tables = ((JournalOp.beginAttempt id now).exec s.tables).2 := by
    rcases he.2 with he | ⟨e, -, -, he | he⟩
    · exact congrArg Prod.snd he
    · exact absurd he hne
    · exact he
  rcases Tx.commit_cases (beginAttempt id now) s.tables with ⟨e, hc⟩ | ⟨o, s₁, hc, hb⟩
  · exact absurd (hexec.trans (congrArg Prod.snd hc)) hne
  · obtain rfl : s'.tables = s₁ := hexec.trans (congrArg Prod.snd hc)
    rcases beginAttempt_ok hb with ⟨-, hsame⟩ | ⟨row, -, -, rfl, -⟩
    · exact absurd hsame hne
    · exact ⟨_, hc⟩

/-- A row that waits stays until an attempt is begun after the deadline. -/
theorem row_waits (h : Run adapterSystem s₀ (l ++ m) cfg) (hf : ClockForward (l ++ m))
    {row : PreparedWrite} (hrow : (finalStore s₀ l).tables.1.write? id = some row)
    (hst : row.state = .inProgress) (hd : row.retryNotBefore = some d) :
    cfg.store.tables.1.write? id = some row ∨ BegunAfter id d m := by
  have hgrow {m : List AdapterTrans} {t : AdapterTrans} (h : BegunAfter id d m) :
      BegunAfter id d (m ++ [t]) := by
    obtain ⟨u, hu, hb⟩ := h
    exact ⟨u, List.mem_append_left _ hu, hb⟩
  refine Run.invariant_from (P := adapterProtocol) (Q := fun _ _ _ => True)
    (J := fun m (s : JournalDb) => ClockForward (l ++ m) →
      s.tables.1.write? id = some row ∨ BegunAfter id d m) body_follows (fun _ => .inl hrow)
    ?_ ?_ ?_ h hf
  · intro m cfg pid c _ _ hi hf
    rw [← List.append_assoc] at hf
    exact (hi hf.left).imp_right hgrow
  · intro m s pid hi hf
    rw [← List.append_assoc] at hf
    exact (hi hf.left).imp_right hgrow
  · intro m cfg pid op r s' g hr hi hg hok he hf
    rw [← List.append_assoc] at hf
    rcases hi hf.left with hkeep | hbegun
    · rcases effect_row he hkeep with hkeep' | ⟨jop, row', rfl, hrow', hstep⟩
      · exact .inl hkeep'
      · have hid : row.operationId = id := operationId_of_write? hkeep
        subst hid
        cases hstep with
        | begins now hbegin =>
          obtain ⟨-, -, -, -, hnow⟩ := hok
          rw [PreparedWrite.begins, hd, Bool.and_eq_true] at hbegin
          have hne : s'.tables ≠ cfg.store.tables := by
            intro e
            rw [e] at hrow'
            have hsame : row = row.setState .dispatching := Option.some.inj (hkeep.symm.trans hrow')
            have hstate := congrArg PreparedWrite.state hsame
            rw [hst] at hstate
            cases hstate
          obtain ⟨record, hexec⟩ := begin_commits he hne
          exact .inr ⟨_, List.mem_append_right _ List.mem_cons_self, pid, now, r, record, rfl,
            hexec, hbegin.2, hasRead_le hr hf.left hg (.inl hnow)⟩
        | finishes _ _ _ hdisp _ => rw [hst] at hdisp; cases hdisp
        | interrupted hdisp => rw [hst] at hdisp; cases hdisp
    · exact .inr (hgrow hbegun)

/-- Where an attempt was begun after the deadline, the clock has reached it. -/
theorem BegunAfter.reached (hb : BegunAfter id d m) (h : Run adapterSystem s₀ (l ++ m) cfg)
    (hf : ClockForward m) : d.leInt cfg.store.clock = true := by
  obtain ⟨t, ht, pid, now, r, record, -, -, hd, hnow⟩ := hb
  obtain ⟨a, b, rfl⟩ := List.append_of_mem ht
  have hsplit : l ++ (a ++ t :: b) = (l ++ a) ++ t :: b := by rw [List.append_assoc]
  obtain ⟨cfg₀, -, hr₀, hpre, -⟩ := h.split hsplit
  rw [hsplit] at h
  have hle := h.clock_le hf.right
  rw [← hr₀.store_eq, hpre] at hle
  exact leInt_mono hd (hnow.trans hle)

/-- **Waiting**: what holds after a response asked to wait until `d`. -/
structure Waits (s₀ : JournalDb) (l m : List AdapterTrans) (cfg : Cfg adapterSystem) (id : Str)
    (d : PyFloat) : Prop where
  /-- No attempt begins before the deadline. -/
  begins : ∀ {t pid now record}, t ∈ m →
    t.event = .act pid (.journal (.beginAttempt id now)) (.ok (some record)) →
      d.leInt t.pre.clock = true
  /-- Nor is a `POST` sent. -/
  posts : ∀ {t pid r reply}, MarksStopped s₀ (l ++ m) → t ∈ m →
    t.event = .act pid (.send id r) reply → isPost r = true → d.leInt t.pre.clock = true
  /-- Until the journal has begun an attempt, only the deadline stands against one. -/
  opens : (∃ row, cfg.store.tables.1.write? id = some row ∧
    ∀ now, row.begins now = d.leInt now) ∨ BegunAfter id d m

theorem waits (h : Run adapterSystem s₀ (l ++ m) cfg) (hf : ClockForward (l ++ m))
    {row : PreparedWrite} (hrow : (finalStore s₀ l).tables.1.write? id = some row)
    (hst : row.state = .inProgress) (hd : row.retryNotBefore = some d) :
    Waits s₀ l m cfg id d := by
  -- what holds before a transition of the run
  have hbefore {t : AdapterTrans} (ht : t ∈ m) : t.pre.tables.1.write? id = some row ∨
      d.leInt t.pre.clock = true := by
    obtain ⟨a, b, rfl⟩ := List.append_of_mem ht
    rw [← List.append_assoc] at h hf
    obtain ⟨cfg₀, -, hr₀, hpre, -⟩ := h.split rfl
    rcases row_waits hr₀ hf.left hrow hst hd with hkeep | hb
    · exact .inl (hpre ▸ hkeep)
    · exact .inr (hpre ▸ hb.reached hr₀ hf.left.right)
  refine ⟨fun {t pid now record} ht he => ?_, fun {t pid r reply} hmark ht he hpost => ?_, ?_⟩
  · rcases hbefore ht with hkeep | hreached
    · obtain ⟨a, b, rfl⟩ := List.append_of_mem ht
      rw [← List.append_assoc] at h hf
      obtain ⟨cfg₀, c, k, hr₀, hpre, hp, heff⟩ := h.act_at rfl he
      obtain ⟨g, hg, -, -, -, -, hnow⟩ := hr₀.act_ok (P := adapterProtocol) (Q := fun _ _ _ => True)
        (i := fun c : AdapterCall => Phase.start c.operationId) body_follows hp
      obtain ⟨row', hrow', hbegin, -⟩ := begin_effect heff
      obtain rfl := Option.some.inj (hkeep.symm.trans hrow')
      rw [PreparedWrite.begins, hd, Bool.and_eq_true] at hbegin
      exact leInt_mono hbegin.2 (hpre ▸ hasRead_le hr₀ hf.left hg (.inl hnow))
    · exact hreached
  · rcases hbefore ht with hkeep | hreached
    · obtain ⟨a, b, rfl⟩ := List.append_of_mem ht
      obtain ⟨row', hrow', hdisp, -⟩ := post_row h hmark (List.append_assoc ..).symm he hpost
      obtain rfl := Option.some.inj (hkeep.symm.trans hrow')
      rw [hst] at hdisp
      cases hdisp
    · exact hreached
  · refine (row_waits h hf hrow hst hd).imp_left fun hkeep => ⟨row, hkeep, fun now => ?_⟩
    rw [PreparedWrite.begins, hst, hd]
    rfl

/-! ## After a response -/

omit [Hashlib] in
theorem reply_kept {g : Phase} {op : AdapterOp} {reply : Except Exc VietShareResponse}
    (r : Except Exc op.Res) (h : g.reply = some reply) (hok : g.ok op) :
    (g.next op r).reply = some reply := by
  have hm := g.moves op r
  generalize g.next op r = g' at hm ⊢
  cases hm with
  | sends id r' reply' =>
    obtain ⟨-, hnone, -⟩ := hok
    rw [h] at hnone
    cases hnone
  | reads t => exact (g.read_reply t).trans h
  | _ => exact h

omit [Stdlib] [Hashlib] in
theorem receipt_next {g : Phase} {op : AdapterOp} {r : Except Exc op.Res} {n : Int}
    (h : (g.next op r).receipt = some n) :
    g.receipt = some n ∨ (g.reply.isSome = true ∧ op = .clock ∧ r ≍ (.ok n : Except Exc Int)) := by
  have hm := g.moves op r
  generalize g.next op r = g' at hm h
  cases hm with
  | reads t =>
    unfold Phase.read at h
    split at h
    · next hr => cases h; exact .inr ⟨hr, rfl, HEq.rfl⟩
    · exact .inl h
  | _ => exact .inl h

/-- Before the reply a process has no time of its receipt. -/
theorem receipt_none (h : Run adapterSystem s₀ tr cfg) {pid : Nat} {g : Phase}
    (hlive : cfg.Live pid) (hg : phase pid tr = some g) (hr : g.reply = none) :
    g.receipt = none := by
  obtain ⟨c, op, k, hp⟩ := hlive
  have hnext (c : AdapterCall) (g : Phase) (op : AdapterOp) (r : Except Exc op.Res)
      (hk : g.reply = none → g.receipt = none) (_ : g.ok op)
      (hnone : (g.next op r).reply = none) : (g.next op r).receipt = none := by
    have hold : g.reply = none := by
      by_contra hne
      have hsome := reply_next r (Option.isSome_iff_ne_none.2 hne)
      rw [show (g.next op r).reply = none from hnone] at hsome
      cases hsome
    cases hrec : (g.next op r).receipt with
    | none => rfl
    | some n =>
      rcases receipt_next hrec with h | ⟨h, -⟩
      · rw [hk hold] at h
        cases h
      · rw [hold] at h
        cases h
  obtain ⟨g', hg', hk⟩ := h.ghost_call (P := adapterProtocol) (Q := fun _ _ _ => True)
    (i := fun c : AdapterCall => Phase.start c.operationId)
    (K := fun _ (g : Phase) => g.reply = none → g.receipt = none) body_follows
    (fun _ _ => rfl) hnext hp
  obtain rfl := Option.some.inj (hg.symm.trans hg')
  exact hk hr

/-- **The time of the receipt was read after the reply.** -/
theorem receipt_read {u : AdapterTrans} {pid : Nat} {r : VietShareRequest}
    {reply : Except Exc VietShareResponse} (h : Run adapterSystem s₀ (l ++ u :: m) cfg)
    (hu : u.event = .act pid (.send id r) reply) {g : Phase} {n : Int}
    (hg : phase pid (l ++ u :: m) = some g) (hn : g.receipt = some n) :
    ∃ v ∈ m, v.event = .act pid .clock (.ok n) := by
  obtain ⟨cfg₀, g₀, hr₀, -, hlive, hg₀, hok⟩ := send_phase h rfl hu
  have hnone := receipt_none hr₀ hlive hg₀ hok.2.1
  have hsplit (m : List AdapterTrans) : l ++ u :: m = (l ++ [u]) ++ m := by simp
  rw [hsplit] at h hg
  refine Run.invariant_from (P := adapterProtocol) (Q := fun _ _ _ => True)
    (J := fun m (_ : JournalDb) => ∀ g, phase pid ((l ++ [u]) ++ m) = some g → g.receipt = some n →
      ∃ v ∈ m, v.event = .act pid .clock (.ok n)) body_follows ?_ ?_ ?_ ?_ h g hg hn
  · intro g hg hn
    rw [List.append_nil, phase_snoc, hu, ghostStep, if_pos rfl, hg₀] at hg
    cases hg
    simp [show g₀.receipt = some n from hn] at hnone
  · intro m cfg q c _ _ hi g hg hn
    rw [← List.append_assoc, phase_snoc] at hg
    by_cases e : q = pid
    · rw [ghostStep, if_pos e] at hg
      cases hg
      cases hn
    · rw [ghostStep, if_neg e] at hg
      obtain ⟨v, hv, he⟩ := hi g hg hn
      exact ⟨v, List.mem_append_left _ hv, he⟩
  · intro m s q hi g hg hn
    rw [← List.append_assoc, phase_snoc] at hg
    obtain ⟨v, hv, he⟩ := hi g hg hn
    exact ⟨v, List.mem_append_left _ hv, he⟩
  · intro m cfg q op r s' g₁ _ hi hg₁ _ _ g hg hn
    rw [← List.append_assoc, phase_snoc] at hg
    by_cases e : q = pid
    · subst e
      rw [ghostStep, if_pos rfl, show phase q ((l ++ [u]) ++ m) = some g₁ from hg₁] at hg
      cases hg
      rcases receipt_next hn with hn | ⟨-, rfl, hr⟩
      · obtain ⟨v, hv, he⟩ := hi g₁ hg₁ hn
        exact ⟨v, List.mem_append_left _ hv, he⟩
      · cases hr
        exact ⟨_, List.mem_append_right _ List.mem_cons_self, rfl⟩
    · rw [ghostStep_other _ _ e] at hg
      obtain ⟨v, hv, he⟩ := hi g hg hn
      exact ⟨v, List.mem_append_left _ hv, he⟩

omit [Stdlib] [Hashlib] in
/-- The row that a finished attempt leaves. -/
theorem finish_effect {s s' : JournalDb} {state : JournalState} {orderCode : Option Str}
    {stored : Option PyFloat}
    (h : AdapterEffect s (.journal (.finishAttempt id state orderCode stored)) (.ok ()) s') :
    ∃ row, s'.tables.1.write? id = some row ∧ row.state = state ∧
      row.retryNotBefore = real stored := by
  obtain ⟨-, he | ⟨e, he, -⟩⟩ := h
  · have hb := Tx.commit_ok.1 (congrArg Prod.fst he).symm
    rw [show ((JournalOp.finishAttempt id state orderCode stored).body.commit s.tables).2 =
      s'.tables from (congrArg Prod.snd he).symm] at hb
    obtain ⟨-, row, hrow, -, hs⟩ := finishAttempt_ok hb
    refine ⟨row.finished state orderCode (real stored), ?_, rfl, rfl⟩
    rw [hs, write?_setWrite_self (f := .finished state orderCode (real stored)) fun _ => rfl, hrow]
    rfl
  · cases he

omit [Hashlib] in
/-- How an attempt ends whose response asks to wait. -/
theorem classify_waits {record : PreparedWrite} {response : VietShareResponse} {code : Option Str}
    {receivedAt : Int} {e : Ending} (h : classify record response code receivedAt = .ok e)
    (hwait : asksToWait response.statusCode code = true) :
    e.state = .inProgress ∧ ∃ d, e.retryNotBefore = some d ∧
      deadline receivedAt (retryAfter response.headers (.int receivedAt)) = .ok d := by
  unfold classify at h
  dsimp only at h
  rw [if_pos hwait] at h
  obtain ⟨d, hd, h⟩ := except_bind_ok.1 h
  cases h
  exact ⟨rfl, d, rfl, hd⟩

/-- **Retry-After in the journal**: a submit that has recorded a response that asks to wait for
some time has stored the time of the response and the delay, and it is waited for. -/
theorem retry_waits {u t : AdapterTrans} {l₁ l₂ : List AdapterTrans} {pid : Nat}
    {r : VietShareRequest} {response : VietShareResponse} {code orderCode : Option Str}
    {state : JournalState} {stored : Option PyFloat}
    (h : Run adapterSystem s₀ (((l₁ ++ u :: l₂) ++ [t]) ++ m) cfg)
    (hf : ClockForward (((l₁ ++ u :: l₂) ++ [t]) ++ m))
    (hu : u.event = .act pid (.send id r) (.ok response))
    (hcode : errorCode response.body = .ok code)
    (hwait : asksToWait response.statusCode code = true)
    (ht : t.event = .act pid (.journal (.finishAttempt id state orderCode stored)) (.ok ())) :
    ∃ receivedAt, (∃ v ∈ l₂, v.event = .act pid .clock (.ok receivedAt)) ∧
      receivedAt ≤ t.pre.clock ∧
      (retryAfter response.headers (.int receivedAt) ≠ some (.finite 0) → ∃ d, stored = some d ∧
        dueAt receivedAt (delayOf (retryAfter response.headers (.int receivedAt))) = some d ∧
        Waits s₀ ((l₁ ++ u :: l₂) ++ [t]) m cfg id d) := by
  obtain ⟨cfg₀, c, k, hr₀, hpre, hp, heff⟩ := h.act_at (List.append_assoc ..) ht
  obtain ⟨g, hg, -, record, -, hends⟩ := hr₀.act_ok (P := adapterProtocol)
    (Q := fun _ _ _ => True) (i := fun c : AdapterCall => Phase.start c.operationId) body_follows hp
  -- the process still has the reply of `u`
  have hreply : g.reply = some (.ok response) := by
    obtain ⟨_, g₀, hr₁, -, -, hg₀, -⟩ := send_phase hr₀ rfl hu
    have hsplit : l₁ ++ u :: l₂ = (l₁ ++ [u]) ++ l₂ := by simp
    have hl : ∃ g, phase pid (l₁ ++ [u]) = some g ∧ g.reply = some (.ok response) := by
      refine ⟨g₀.next (.send id r) (.ok response), ?_, rfl⟩
      rw [phase_snoc, hu, ghostStep, if_pos rfl, hg₀]
      rfl
    rw [hsplit] at hr₀ hg
    obtain ⟨g', hg', hk⟩ := Run.ghost_keeps (P := adapterProtocol) (Q := fun _ _ _ => True)
      (i := fun c : AdapterCall => Phase.start c.operationId)
      (K := fun g : Phase => g.reply = some (.ok response)) body_follows
      (fun r h hok => reply_kept r h hok) hr₀ hl
    obtain rfl := Option.some.inj (hg.symm.trans hg')
    exact hk
  cases hends with
  | lost hno => exact absurd hreply (hno response)
  | @read response' code' receivedAt e hreply' hcode' hreceipt he =>
    rw [hreply] at hreply'
    cases hreply'
    obtain rfl : code = code' := Except.ok.inj (hcode.symm.trans hcode')
    obtain ⟨hst, d, hd, hdeadline⟩ := classify_waits he hwait
    have hrec := hreceipt hwait
    obtain ⟨row, hrow, hrst, hrd⟩ := finish_effect heff
    rw [hd, real_deadline hdeadline] at hrd
    have hle : receivedAt ≤ t.pre.clock := hpre ▸ hasRead_le hr₀ hf.left.left hg (.inr hrec)
    have hlook : (finalStore (A := adapterSystem) s₀
        ((l₁ ++ u :: l₂) ++ [t])).tables.1.write? id = some row := by
      rw [finalStore_snoc]
      exact hrow
    exact ⟨receivedAt, receipt_read hr₀ hu hg hrec, hle, fun hretry => ⟨d, hd,
      dueAt_of_deadline hdeadline hretry, waits h hf hlook (hrst.trans hst) hrd⟩⟩

end

end Offline

end NyanShopBot.VietShare
