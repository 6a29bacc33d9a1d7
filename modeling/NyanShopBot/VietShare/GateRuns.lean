import NyanShopBot.VietShare.ExecutorCalls
import NyanShopBot.VietShare.Outcome

/-!
# Runs of the gate

What one step of a run does to the tables (`gate_effect`, `gate_answer`), and what
the process that takes it has done before (`act_gatePhase`, `send_gatePhase`).
-/

namespace NyanShopBot.VietShare

open Py Db Conc

section

variable [Stdlib] [Hashlib]

abbrev GateTrans := Trans gateSystem

abbrev gatePhase (pid : Nat) (tr : List GateTrans) : Option GatePhase :=
  ghost (A := gateSystem) gateProtocol GatePhase.start pid tr

theorem gatePhase_snoc (pid : Nat) (tr : List GateTrans) (t : GateTrans) :
    gatePhase pid (tr ++ [t]) =
      ghostStep (A := gateSystem) gateProtocol GatePhase.start pid (gatePhase pid tr) t.event :=
  ghost_snoc _ _ pid tr t

variable {s₀ : GateDb} {tr l m : List GateTrans} {cfg : Cfg gateSystem}

/-! ## Effects -/

omit [Stdlib] in
/-- Only a gate operation touches the tables, and it runs as a whole. -/
theorem gate_effect {s s' : GateDb} {op : ExecutorOp} {r : Except Exc op.Res}
    (h : GateEffect s op r s') : s'.tables = s.tables ∨
      ∃ gop, op = .gate gop ∧ s'.tables = (gop.exec s'.clock s.tables).2 := by
  cases op with
  | clock => exact .inl (congrArg GateDb.tables h)
  | nonceSource => exact .inl (congrArg GateDb.tables h)
  | send r' => exact .inl (congrArg GateDb.tables h)
  | gate gop =>
    rcases h with he | ⟨e, -, he | he⟩
    · exact .inr ⟨gop, rfl, congrArg Prod.snd he⟩
    · exact .inl he
    · exact .inr ⟨gop, rfl, he⟩

omit [Stdlib] in
/-- A gate operation that returns has committed. -/
theorem gate_answer {s s' : GateDb} {op : GateOp} {a : op.Res}
    (h : GateEffect s (.gate op) (.ok a) s') :
    op.body s'.clock s.tables = .ok (a, s'.tables) := by
  rcases h with he | ⟨e, he, -⟩
  · have hb := Tx.commit_ok.1 (congrArg Prod.fst he).symm
    rwa [show ((op.body s'.clock).commit s.tables).2 = s'.tables from
      (congrArg Prod.snd he).symm] at hb
  · cases he

/-! ## Phases -/

/-- The process of a step was in order before it. -/
theorem act_gatePhase {t : GateTrans} {pid : Nat} {op : ExecutorOp} {r : Except Exc op.Res}
    (h : Run gateSystem s₀ tr cfg) (htr : tr = l ++ t :: m) (ht : t.event = .act pid op r) :
    ∃ cfg₀ g, Run gateSystem s₀ l cfg₀ ∧ cfg₀.store = t.pre ∧ cfg₀.Live pid ∧
      gatePhase pid l = some g ∧ g.ok op ∧ GateEffect t.pre op r t.post := by
  obtain ⟨cfg₀, c, k, hr, hstore, hp, he⟩ := h.act_at htr ht
  obtain ⟨g, hg, hok⟩ := hr.act_ok (P := gateProtocol) (Q := fun _ _ _ => True)
    (i := GatePhase.start) GateCall.follows hp
  exact ⟨cfg₀, g, hr, hstore, ⟨c, _, k, hp⟩, hg, hok, he⟩

/-- Only a submit sends. -/
theorem send_gatePhase {t : GateTrans} {pid : Nat} {r : VietShareRequest}
    {reply : Except Exc Reply} (h : Run gateSystem s₀ tr cfg) (htr : tr = l ++ t :: m)
    (ht : t.event = .act pid (.send r) reply) :
    ∃ cfg₀ g credentials testId operatorId, Run gateSystem s₀ l cfg₀ ∧ cfg₀.store = t.pre ∧
      cfg₀.Live pid ∧ gatePhase pid l = some g ∧ g.call = .submit credentials testId operatorId ∧
      g.okSubmit testId operatorId (.send r) := by
  obtain ⟨cfg₀, g, hr, hstore, hlive, hg, hok, -⟩ := act_gatePhase h htr ht
  cases hc : g.call with
  | submit credentials testId operatorId =>
    exact ⟨cfg₀, g, credentials, testId, operatorId, hr, hstore, hlive, hg, hc,
      (ok_submit hc).1 hok⟩
  | single o =>
    unfold GatePhase.ok at hok
    rw [hc] at hok
    cases hok

omit [Stdlib] [Hashlib] in
/-- A phase keeps its call. -/
theorem call_next {g : GatePhase} {op : ExecutorOp} (r : Except Exc op.Res) :
    (g.next op r).call = g.call := by
  have hm := g.moves op r
  generalize g.next op r = g' at hm ⊢
  cases hm <;> rfl

omit [Hashlib] in
/-- A reply is not replaced by another one. -/
theorem gateReply_kept {g : GatePhase} {op : ExecutorOp} {reply : Except Exc Reply}
    (r : Except Exc op.Res) (h : g.reply = some reply) (hok : g.ok op) :
    (g.next op r).reply = some reply := by
  have hm := g.moves op r
  generalize g.next op r = g' at hm ⊢
  cases hm with
  | sends r' reply' =>
    cases hc : g.call with
    | submit credentials testId operatorId =>
      obtain ⟨hnone, -⟩ := (ok_submit hc).1 hok
      rw [h] at hnone
      cases hnone
    | single o =>
      unfold GatePhase.ok at hok
      rw [hc] at hok
      cases hok
  | _ => exact h

/-- After a process has sent, it is a submit that keeps its reply. -/
theorem gateReply_after {u : GateTrans} {pid : Nat} {r : VietShareRequest}
    {reply : Except Exc Reply} (h : Run gateSystem s₀ (l ++ u :: m) cfg)
    (hu : u.event = .act pid (.send r) reply) {g : GatePhase}
    (hg : gatePhase pid (l ++ u :: m) = some g) :
    g.reply = some reply ∧
      ∃ credentials testId operatorId, g.call = .submit credentials testId operatorId := by
  obtain ⟨_, g₀, credentials, testId, operatorId, -, -, -, hg₀, hc, -⟩ := send_gatePhase h rfl hu
  have hl : ∃ g, gatePhase pid (l ++ [u]) = some g ∧ g.reply = some reply ∧
      ∃ credentials testId operatorId, g.call = .submit credentials testId operatorId := by
    refine ⟨g₀.next (.send r) reply, ?_, rfl, credentials, testId, operatorId, hc⟩
    rw [gatePhase_snoc, hu, ghostStep, if_pos rfl, hg₀]
    rfl
  rw [show l ++ u :: m = (l ++ [u]) ++ m by simp] at h hg
  obtain ⟨g', hg', hk⟩ := Run.ghost_keeps (P := gateProtocol) (Q := fun _ _ _ => True)
    (i := GatePhase.start) (K := fun g : GatePhase => g.reply = some reply ∧
      ∃ credentials testId operatorId, g.call = .submit credentials testId operatorId)
    GateCall.follows (fun {g op} r hk hok => ⟨gateReply_kept r hk.1 hok, by
      obtain ⟨credentials, testId, operatorId, hc⟩ := hk.2
      exact ⟨credentials, testId, operatorId, (call_next r).trans hc⟩⟩) h hl
  obtain rfl := Option.some.inj (hg.symm.trans hg')
  exact hk

omit [Stdlib] [Hashlib] in
theorem received_next {g : GatePhase} {op : ExecutorOp} {r : Except Exc op.Res} {x : PyFloat}
    (h : (g.next op r).received = some x) :
    g.received = some x ∨ (op = .gate .serverNowSeconds ∧ r ≍ (.ok x : Except Exc PyFloat)) := by
  have hm := g.moves op r
  generalize g.next op r = g' at hm h
  cases hm with
  | reads y => cases h; exact .inr ⟨rfl, HEq.rfl⟩
  | _ => exact .inl h

/-- Before the reply a submit has read no time of its receipt. -/
theorem received_none (h : Run gateSystem s₀ tr cfg) {pid : Nat} {g : GatePhase}
    {credentials : VietShareCredentials} {testId : Str} {operatorId : Option Str}
    (hlive : cfg.Live pid) (hg : gatePhase pid tr = some g)
    (hc : g.call = .submit credentials testId operatorId) (hr : g.reply = none) :
    g.received = none := by
  obtain ⟨c, op, k, hp⟩ := hlive
  have hnext (c : GateCall) (g : GatePhase) (op : ExecutorOp) (r : Except Exc op.Res)
      (hk : (∃ o, g.call = .single o) ∨ (g.reply = none → g.received = none)) (hok : g.ok op) :
      (∃ o, (g.next op r).call = .single o) ∨
        ((g.next op r).reply = none → (g.next op r).received = none) := by
    rcases hk with ⟨o, ho⟩ | hk
    · exact .inl ⟨o, (call_next r).trans ho⟩
    cases hc : g.call with
    | single o => exact .inl ⟨o, (call_next r).trans hc⟩
    | submit credentials testId operatorId =>
      replace hok := (ok_submit hc).1 hok
      right
      have hm := g.moves op r
      generalize g.next op r = g' at hm ⊢
      cases hm with
      | sends r' reply => simp
      | reads x =>
        intro hnone
        replace hok : g.reply.isSome = true := hok
        rw [show g.reply = none from hnone] at hok
        cases hok
      | _ => exact hk
  obtain ⟨g', hg', hk⟩ := h.ghost_call (P := gateProtocol) (Q := fun _ _ _ => True)
    (i := GatePhase.start)
    (K := fun _ (g : GatePhase) => (∃ o, g.call = .single o) ∨
      (g.reply = none → g.received = none)) GateCall.follows (fun _ => .inr fun _ => rfl) hnext hp
  obtain rfl := Option.some.inj (hg.symm.trans hg')
  rcases hk with ⟨o, ho⟩ | hk
  · rw [hc] at ho
    cases ho
  · exact hk hr

/-- **The time of the receipt was read after the reply**, off the database clock. -/
theorem received_read {u : GateTrans} {pid : Nat} {r : VietShareRequest}
    {reply : Except Exc Reply} (h : Run gateSystem s₀ (l ++ u :: m) cfg)
    (hu : u.event = .act pid (.send r) reply) {g : GatePhase} {x : PyFloat}
    (hg : gatePhase pid (l ++ u :: m) = some g) (hx : g.received = some x) :
    ∃ v ∈ m, v.event = .act pid (.gate .serverNowSeconds) (.ok x) ∧
      x = PyFloat.ofRat (v.post.clock / 1000000) := by
  obtain ⟨cfg₀, g₀, _, _, _, hr₀, -, hlive, hg₀, hc, hok⟩ := send_gatePhase h rfl hu
  have hnone := received_none hr₀ hlive hg₀ hc hok.1
  rw [show l ++ u :: m = (l ++ [u]) ++ m by simp] at h hg
  have hgrow {m : List GateTrans} {t : GateTrans} (h : ∃ v ∈ m, v.event =
      .act pid (.gate .serverNowSeconds) (.ok x) ∧ x = PyFloat.ofRat (v.post.clock / 1000000)) :
      ∃ v ∈ m ++ [t], v.event = .act pid (.gate .serverNowSeconds) (.ok x) ∧
        x = PyFloat.ofRat (v.post.clock / 1000000) := by
    obtain ⟨v, hv, he⟩ := h
    exact ⟨v, List.mem_append_left _ hv, he⟩
  refine Run.invariant_from (P := gateProtocol) (Q := fun _ _ _ => True) (i := GatePhase.start)
    (J := fun (m : List GateTrans) (_ : GateDb) => ∀ g, gatePhase pid ((l ++ [u]) ++ m) = some g →
      g.received = some x → ∃ v ∈ m, v.event = .act pid (.gate .serverNowSeconds) (.ok x) ∧
        x = PyFloat.ofRat (v.post.clock / 1000000)) GateCall.follows ?_ ?_ ?_ ?_ h g hg hx
  · intro g hg hx
    rw [List.append_nil, gatePhase_snoc, hu, ghostStep, if_pos rfl, hg₀] at hg
    cases hg
    simp [show g₀.received = some x from hx] at hnone
  · intro m cfg q c _ _ hi g hg hx
    rw [← List.append_assoc, gatePhase_snoc] at hg
    by_cases e : q = pid
    · rw [ghostStep, if_pos e] at hg
      cases hg
      cases hx
    · rw [ghostStep, if_neg e] at hg
      exact hgrow (hi g hg hx)
  · intro m s q hi g hg hx
    rw [← List.append_assoc, gatePhase_snoc] at hg
    exact hgrow (hi g hg hx)
  · intro m cfg q op r s' g₁ _ hi hg₁ _ he g hg hx
    rw [← List.append_assoc, gatePhase_snoc] at hg
    by_cases e : q = pid
    · subst e
      rw [ghostStep, if_pos rfl, show gatePhase q ((l ++ [u]) ++ m) = some g₁ from hg₁] at hg
      cases hg
      rcases received_next hx with hx | ⟨rfl, hr⟩
      · exact hgrow (hi g₁ hg₁ hx)
      · cases hr
        have hread :
            (GateOp.serverNowSeconds.body s'.clock) cfg.store.tables = .ok (x, s'.tables) :=
          gate_answer he
        exact ⟨_, List.mem_append_right _ List.mem_cons_self, rfl, (Tx.pure_ok.1 hread).1⟩
    · rw [ghostStep_other _ _ e] at hg
      exact hgrow (hi g hg hx)

end

end NyanShopBot.VietShare
