import NyanShopBot.Orders.AtMostOnce

/-!
# What becomes of a dispatch

A purchase that was sent is recorded by the call that sent it. `recordOp` is the
operation that records an outcome, `Recordable` says which outcomes the
repository accepts. `dispatch_settles`: with transactions that commit, a
recordable outcome leaves the intent settled when its call ends, and an
undisturbed call leaves it settled only then.
-/

namespace NyanShopBot.Orders

open Py Db Conc

section

variable [UnicodeData]

/-- The operation that records the outcome of a purchase. -/
def recordOp (id : Str) : Except Exc PurchaseResult → Option RepoOp
  | .error .fatal => none
  | .ok (.succeeded reference) => some (.recordSuccess id reference)
  | .ok (.failedSafe code) => some (.recordSafeFailure id code)
  | _ => some (.recordUnknown id)

/-- The repository accepts the record of the outcome. -/
def Recordable : Except Exc PurchaseResult → Prop
  | .error .fatal => False
  | .ok (.succeeded reference) => ∃ text, reference = some text ∧ isSafeText text 128 = true
  | .ok (.failedSafe code) => code.isSome = true
  | _ => True

/-- The dispatch of the intent has a recorded end. -/
def Settled (s : Store) (id : Str) : Prop :=
  ∃ st, s.1.purchaseState id = some st ∧ st ≠ .prepared ∧ st ≠ .dispatching

theorem recordOp_uncertain {id : Str} {outcome : Except Exc PurchaseResult}
    (h : uncertain outcome) :
    recordOp id outcome = some (.recordUnknown id) := by
  match outcome with
  | .error .fatal => exact h.elim
  | .error .cancelled | .error .database | .error .exception | .error (.order _) => rfl
  | .ok (.succeeded _) | .ok (.failedSafe _) => exact h.elim
  | .ok .accepted | .ok .other => rfl

/-- A call that has sent its purchase only reads, or records the outcome. -/
theorem sent_ok {key id : Str} {outcome : Except Exc PurchaseResult} {op : ServiceOp}
    (h : (Stage.sent key id outcome).ok op) :
    op.Neutral ∨ ∃ rop, op = .repo rop ∧ recordOp id outcome = some rop := by
  cases op with
  | repo op =>
    cases op with
    | recordSuccess id' reference =>
      obtain ⟨key', h⟩ | h := h <;> cases h
      exact .inr ⟨_, rfl, rfl⟩
    | recordSafeFailure id' code =>
      obtain ⟨key', h⟩ | h := h <;> cases h
      exact .inr ⟨_, rfl, rfl⟩
    | recordUnknown id' =>
      obtain ⟨key', outcome', h, hu⟩ | h := h <;> cases h
      exact .inr ⟨_, rfl, recordOp_uncertain hu⟩
    | prepare c => cases h
    | claimPrepared id' => obtain ⟨key', h⟩ := h; cases h
    | beginReconciliation id' => cases h
    | get => exact .inl trivial
    | createDeliveryAttempt => exact .inl trivial
    | finishDelivery => exact .inl trivial
  | purchase request => obtain ⟨_, _, _, h, -⟩ := h; cases h
  | reconcile request => obtain ⟨_, _, h, -⟩ := h; cases h
  | _ => exact .inl trivial

/-- A call that has recorded its outcome only reads. -/
theorem recorded_ok {key id : Str} {outcome : Except Exc PurchaseResult}
    {rec : Except Exc OrderAggregate} {op : ServiceOp}
    (h : (Stage.recorded key id outcome rec).ok op) : op.Neutral := by
  cases op with
  | repo op =>
    cases op with
    | recordSuccess id' reference => obtain ⟨key', h⟩ | h := h <;> cases h
    | recordSafeFailure id' code => obtain ⟨key', h⟩ | h := h <;> cases h
    | recordUnknown id' => obtain ⟨key', outcome', h, -⟩ | h := h <;> cases h
    | prepare c => cases h
    | claimPrepared id' => obtain ⟨key', h⟩ := h; cases h
    | beginReconciliation id' => cases h
    | get => trivial
    | createDeliveryAttempt => trivial
    | finishDelivery => trivial
  | purchase request => obtain ⟨_, _, _, h, -⟩ := h; cases h
  | reconcile request => obtain ⟨_, _, h, -⟩ := h; cases h
  | _ => trivial

theorem next_recordOp {key id : Str} {outcome : Except Exc PurchaseResult} {rop : RepoOp}
    (h : recordOp id outcome = some rop) (r : Except Exc rop.Res) :
    ∃ rec, (Stage.sent key id outcome).next (.repo rop) r = .recorded key id outcome rec := by
  unfold recordOp at h
  split at h <;> cases h <;> exact ⟨r, rfl⟩

/-- The call has sent the purchase and has this outcome of it. -/
def Stage.Has (key id : Str) (outcome : Except Exc PurchaseResult) (g : Stage) : Prop :=
  g = .sent key id outcome ∨ ∃ rec, g = .recorded key id outcome rec

theorem Stage.Has.next {key id : Str} {outcome : Except Exc PurchaseResult} {g : Stage}
    {op : ServiceOp} (r : Except Exc op.Res) (h : g.Has key id outcome) (hok : g.ok op) :
    (g.next op r).Has key id outcome := by
  have hneutral (hn : op.Neutral) : (g.next op r).Has key id outcome := by
    rw [show g.next op r = g from (neutral_frame g op hn).2 r]; exact h
  rcases h with rfl | ⟨rec, rfl⟩
  · rcases sent_ok hok with hn | ⟨rop, rfl, hrop⟩
    · exact hneutral hn
    · exact .inr (next_recordOp hrop r)
  · exact hneutral (recorded_ok hok)

theorem Represents.settled {s : Store} {L : Ledger} {id : Str} {o : Obligation}
    (hR : Represents s.1 L) (ho : L id = some o) :
    Settled s id ↔ o.purchase ≠ .prepared ∧ o.purchase ≠ .dispatching := by
  unfold Settled
  rw [hR.purchaseState id, ho, Option.map_some]
  cases o.purchase <;> simp [Purchase.state]

variable [Hashlib]

/-! ## The rest of a run -/

/-- Every transaction of the run commits, or is rolled back because its body raised. -/
def Available (tr : OrdersTrace) : Prop :=
  ∀ t ∈ tr, ∀ pid op r, t.event = .act pid (.repo op) r → (r, t.post) = op.exec t.pre

/-- The stored purchase of an intent satisfies `P`. -/
def Stored (P : Purchase → Prop) (id : Str) (s : Store) : Prop :=
  ∃ L o, Represents s.1 L ∧ L id = some o ∧ P o.purchase

/-- **What the steps of a purchase keep, the rest of a run keeps.** -/
theorem stored_keeps {P : Purchase → Prop} (hP : ∀ {p q}, P p → p.Step q → P q)
    {l m : OrdersTrace} {cfg : Cfg ordersSystem} {id : Str}
    (h : Run ordersSystem Store.empty (l ++ m) cfg)
    (hl : Stored P id (finalStore Store.empty l)) : Stored P id cfg.store := by
  refine Run.invariant_from (J := fun _ s => Stored P id s) body_follows hl ?_ ?_ ?_ h
  · intro m cfg pid c _ _ hs
    exact hs
  · intro m s pid hs
    exact hs
  · rintro m cfg pid op r s' g - ⟨L, o, hR, ho, hp⟩ - - hE
    obtain ⟨L', he⟩ := hE.leads hR
    obtain ⟨o', ho', hl⟩ := he.later ho
    exact ⟨L', o', he.represents, ho', hl.purchase.keeps hP hp⟩

theorem settled_keeps {l m : OrdersTrace} {cfg : Cfg ordersSystem} {id : Str}
    (h : Run ordersSystem Store.empty (l ++ m) cfg)
    (hl : Stored (fun p => p ≠ .prepared ∧ p ≠ .dispatching) id (finalStore Store.empty l)) :
    Settled cfg.store id := by
  obtain ⟨L, o, hR, ho, hp⟩ := stored_keeps
    (fun {p q} hp hs => ⟨hs.not_prepared, hs.not_dispatching hp.1⟩) h hl
  exact (hR.settled ho).2 hp

/-! ## Recording an outcome -/

theorem exec_of_body (op : RepoOp) {s s' : Store} {a : op.Res} (h : op.body s = .ok (a, s')) :
    op.exec s = (.ok a, s') := by
  unfold RepoOp.exec Tx.commit
  rw [h]

/-- What the record of an outcome makes of a purchase that waits for it. -/
def recordedPurchase : Except Exc PurchaseResult → Purchase
  | .ok (.succeeded (some text)) => .succeeded text
  | .ok (.failedSafe (some code)) => .failedSafe code
  | _ => .unknown

/-- **A recordable outcome is recorded** while the intent is dispatching. -/
theorem record_dispatching {s : Store} {id : Str} {a : OrderAggregate}
    {outcome : Except Exc PurchaseResult} {rop : RepoOp} (hload : Loads s.1 id a)
    (hst : a.intent.purchaseState = .dispatching) (hop : recordOp id outcome = some rop)
    (hrec : Recordable outcome) :
    ∃ b, rop.body s = .ok (b, s.setPurchase id (recordedPurchase outcome).state
      (recordedPurchase outcome).reference (recordedPurchase outcome).failure) := by
  have hunknown : recordUnknown id s =
      .ok (a.replacePurchase .unknown none none, s.setPurchase id .unknown none none) :=
    recordUnknown_ok.2 ⟨a, hload, .inr ⟨hst, rfl, rfl⟩⟩
  match outcome with
  | .error .fatal => cases hop
  | .error .cancelled | .error .database | .error .exception | .error (.order _) =>
    cases hop
    exact ⟨_, hunknown⟩
  | .ok .accepted | .ok .other =>
    cases hop
    exact ⟨_, hunknown⟩
  | .ok (.succeeded reference) =>
    cases hop
    obtain ⟨text, rfl, hsafe⟩ := hrec
    refine ⟨a.replacePurchase .succeeded (some text) none, recordSuccess_ok.2 ⟨text, rfl, hsafe,
      (recordTerminal_ok (varcharOrNull_of_isSafeText hsafe)).2 ⟨a, hload, .inr ?_⟩⟩⟩
    exact ⟨by rw [hst]; decide, .inl hst, rfl, rfl⟩
  | .ok (.failedSafe none) => cases hrec
  | .ok (.failedSafe (some code)) =>
    cases hop
    refine ⟨a.replacePurchase .failedSafe none (some code), recordSafeFailure_ok.2 ⟨code, rfl,
      (recordTerminal_ok rfl).2 ⟨a, hload, .inr ?_⟩⟩⟩
    exact ⟨by rw [hst]; decide, .inl hst, rfl, rfl⟩

theorem purchaseState_setPurchase {s : Store} {id : Str} {a : OrderAggregate}
    (h : Loads s.1 id a) (st : PurchaseState) (reference : Option Str)
    (code : Option SafeFailureCode) :
    (s.setPurchase id st reference code).1.purchaseState id = some st := by
  obtain ⟨r, hr, -⟩ := h.intent
  unfold Tables.purchaseState
  rw [lookup_intent_setPurchase, hr]
  rfl

/-- **The record of a recordable outcome settles a claimed intent.** -/
theorem record_settles {s : Store} {L : Ledger} {key id : Str}
    {outcome : Except Exc PurchaseResult} {rop : RepoOp} (hR : Represents s.1 L)
    (hc : Claimed s L key id) (hop : recordOp id outcome = some rop) (hrec : Recordable outcome) :
    Stored (fun p => p ≠ .prepared ∧ p ≠ .dispatching) id (rop.exec s).2 := by
  obtain ⟨o, ho, -, hp⟩ := hc.obligation
  obtain ⟨a, ha⟩ := hc.loads
  obtain ⟨L', hR', hl⟩ := exec_refines rop hR
  obtain ⟨o', ho', hlater⟩ := hl.later ho
  refine ⟨L', o', hR', ho', ?_⟩
  by_cases hd : o.purchase = .dispatching
  · have hst : a.intent.purchaseState = .dispatching := by
      obtain ⟨o₁, ho₁, he⟩ := hR.of_loads ha
      obtain rfl : o = o₁ := Option.some.inj (ho.symm.trans ho₁)
      rw [(ha.encodes he).1, hd]
      rfl
    obtain ⟨b, hb⟩ := record_dispatching ha hst hop hrec
    rw [exec_of_body rop hb] at hR'
    refine (hR'.settled ho').1 ⟨_, purchaseState_setPurchase ha _ _ _, ?_⟩
    unfold recordedPurchase
    split <;> exact ⟨nofun, nofun⟩
  · exact hlater.purchase.keeps (P := fun p => p ≠ .prepared ∧ p ≠ .dispatching)
      (fun hp hs => ⟨hs.not_prepared, hs.not_dispatching hp.1⟩) ⟨hp, hd⟩

/-! ## The steps of a dispatch -/

section run

variable {tr l m : OrdersTrace} {cfg : Cfg ordersSystem} {t : Trans ordersSystem} {pid : Nat}
variable {id : Str} {request : SupplierPurchaseRequest} {r : Except Exc PurchaseResult}

/-- The stage of a call after it sent a purchase. -/
theorem purchase_stage (h : Run ordersSystem Store.empty tr cfg) (htr : tr = l ++ t :: m)
    (ht : t.event = .act pid (.purchase request) r)
    (hkey : request.requestKey = str "purchase:" ++ id) :
    ∃ key, stageOf pid (l ++ [t]) = some (.sent key id r) := by
  obtain ⟨cfg₀, c, k, h₀, -, hp, -⟩ := h.act_at htr ht
  obtain ⟨L, hI⟩ := run_inv h₀
  obtain ⟨g, hg, hok⟩ := h₀.act_ok (P := callProtocol) (i := ServiceCall.stage) body_follows hp
  obtain ⟨key, id', a, rfl, rfl⟩ := hok
  obtain ⟨-, o, ho, hreq⟩ := hI.stage hg
  obtain rfl : id' = id := by
    rw [hreq, hI.requestKey ho] at hkey
    exact List.append_cancel_left hkey
  obtain ⟨pre, event, post⟩ := t
  cases ht
  exact ⟨key, by rw [stageOf_act hg, if_pos rfl]; rfl⟩

/-- **The step that led a call to its stage**, and what held before it. -/
theorem stage_origin (h : Run ordersSystem Store.empty tr cfg) {g : Stage}
    (hinit : ∀ c : ServiceCall, c.stage ≠ g) (hg : stageOf pid tr = some g) :
    ∃ l t m op r g₀ cfg₀, tr = l ++ t :: m ∧ t.event = .act pid op r ∧
      Run ordersSystem Store.empty l cfg₀ ∧ cfg₀.store = t.pre ∧ stageOf pid l = some g₀ ∧
      g₀.ok op ∧ g₀.Moves op r g := by
  obtain ⟨l, t, m, op, r, g₀, htr, ht, hg₀, hne, hnext⟩ :=
    ghost_switch (A := ordersSystem) (P := callProtocol) (i := ServiceCall.stage)
      (K := fun g' : Stage => g' = g) hinit hg rfl
  obtain ⟨cfg₀, c, k, h₀, hs₀, hp, -⟩ := h.act_at htr ht
  obtain ⟨g', hg', hok⟩ := h₀.act_ok (P := callProtocol) (i := ServiceCall.stage) body_follows hp
  obtain rfl : g₀ = g' := Option.some.inj (hg₀.symm.trans hg')
  exact ⟨l, t, m, op, r, g₀, cfg₀, htr, ht, h₀, hs₀, hg₀, hok, Stage.moves_of_ne hnext hne⟩

/-- A stage that is recorded was recorded by the operation of its outcome. -/
theorem record_step (h : Run ordersSystem Store.empty tr cfg) {key : Str}
    {rec : Except Exc OrderAggregate} (hg : stageOf pid tr = some (.recorded key id r rec)) :
    ∃ l u m rop r' cfg₀, tr = l ++ u :: m ∧ u.event = .act pid (.repo rop) r' ∧
      recordOp id r = some rop ∧ Run ordersSystem Store.empty l cfg₀ ∧ cfg₀.store = u.pre ∧
      stageOf pid l = some (.sent key id r) ∧
      (Stage.sent key id r).Moves (.repo rop) r' (.recorded key id r rec) := by
  obtain ⟨l, u, m, op, r', g₀, cfg₀, htr, hu, h₀, hs₀, hg₀, hok, hm⟩ :=
    stage_origin h (fun c => by cases c <;> exact nofun) hg
  obtain rfl : g₀ = .sent key id r := by cases hm <;> rfl
  rcases sent_ok hok with hn | ⟨rop, rfl, hrop⟩
  · cases hm <;> exact hn.elim
  · exact ⟨l, u, m, rop, r', cfg₀, htr, hu, hrop, h₀, hs₀, hg₀, hm⟩

/-- A recorded outcome that is recordable has settled the intent. -/
theorem recorded_settled (h : Run ordersSystem Store.empty tr cfg) (ha : Available tr) {key : Str}
    {rec : Except Exc OrderAggregate} (hg : stageOf pid tr = some (.recorded key id r rec))
    (hrec : Recordable r) : Settled cfg.store id := by
  obtain ⟨l, u, m, rop, r', cfg₀, rfl, hu, hrop, h₀, hs₀, hl, -⟩ := record_step h hg
  obtain ⟨L, hI⟩ := run_inv h₀
  rw [hs₀] at hI
  have hpost : u.post = (rop.exec u.pre).2 :=
    congrArg Prod.snd (ha u (by simp) pid rop r' hu)
  have hst := record_settles hI.represents (hI.stage hl) hrop hrec
  rw [List.append_cons] at h
  exact settled_keeps h (by rw [finalStore_snoc, hpost]; exact hst)

/-- A record that is not recordable raises, and nothing is stored. -/
theorem record_rejected {s s' : Store} {rop : RepoOp} {r' : Except Exc rop.Res}
    (hop : recordOp id r = some rop) (hrec : ¬ Recordable r) (he : Effect s (.repo rop) r' s') :
    s' = s := by
  have hfail (a : rop.Res) (s₁ : Store) : rop.body s ≠ .ok (a, s₁) := by
    intro h
    match r with
    | .error .fatal => cases hop
    | .error .cancelled | .error .database | .error .exception | .error (.order _) =>
      exact hrec trivial
    | .ok .accepted | .ok .other => exact hrec trivial
    | .ok (.succeeded reference) =>
      cases hop
      obtain ⟨text, rfl, hsafe, -⟩ := recordSuccess_ok.1 h
      exact hrec ⟨text, rfl, hsafe⟩
    | .ok (.failedSafe code) =>
      cases hop
      obtain ⟨c, rfl, -⟩ := recordSafeFailure_ok.1 h
      exact hrec rfl
  have hexec : (rop.exec s).2 = s := by
    rcases Tx.commit_cases rop.body s with ⟨e, h⟩ | ⟨a, s₁, h, hbody⟩
    · exact congrArg Prod.snd h
    · exact absurd hbody (hfail a s₁)
  rcases he with h | ⟨e, -, h | h⟩
  · exact (congrArg Prod.snd h).trans hexec
  · exact h
  · exact h.trans hexec

/-- What no stage depends on moves no purchase. -/
theorem Neutral.stored {P : Purchase → Prop} {s s' : Store} {op : ServiceOp}
    {r' : Except Exc op.Res} (hn : op.Neutral) (hs : Stored P id s) (hE : Effect s op r' s') :
    Stored P id s' := by
  obtain ⟨L, o, hR, ho, hp⟩ := hs
  obtain ⟨L', he⟩ := hE.leads hR
  obtain ⟨o', ho', -⟩ := he.later ho
  refine ⟨L', o', he.represents, ho', ?_⟩
  rcases he.causes ho ho' with e | ⟨rop, rfl, hc⟩
  · rwa [e]
  · unfold RepoOp.Causes at hc
    split at hc <;> first | exact hc.elim | (subst hc; exact hn.elim)

/-- **An outcome that is not recordable leaves an undisturbed intent dispatching.** -/
theorem undisturbed_dispatching (h : Run ordersSystem Store.empty tr cfg) (htr : tr = l ++ t :: m)
    (ht : t.event = .act pid (.purchase request) r)
    (hkey : request.requestKey = str "purchase:" ++ id)
    (hpre : t.pre.1.purchaseState id = some .dispatching)
    (halone : ∀ u ∈ m, ∀ q op r', u.event = .act q op r' → q = pid) (hrec : ¬ Recordable r) :
    Stored (· = .dispatching) id cfg.store := by
  obtain ⟨key, hsent⟩ := purchase_stage h htr ht hkey
  rw [List.append_cons] at htr
  subst htr
  -- the only calls that can come are those of a process that has this outcome
  refine Run.invariant_from (P := callProtocol) (i := ServiceCall.stage)
    (J := fun m s => (∀ u ∈ m, ∀ q op r', u.event = .act q op r' → q = pid) →
      Stored (· = .dispatching) id s) body_follows ?_ ?_ ?_ ?_ h halone
  · intro _
    obtain ⟨cfg₀, c, k, h₀, hs₀, -, hE⟩ := h.act_at (List.append_assoc ..) ht
    obtain ⟨L, hI⟩ := run_inv h₀
    rw [hs₀] at hI
    rw [finalStore_snoc, show t.post = t.pre from hE]
    have hst := hI.represents.purchaseState id
    rw [hpre] at hst
    cases hL : L id with
    | none => rw [hL] at hst; cases hst
    | some o =>
      rw [hL] at hst
      exact ⟨L, o, hI.represents, hL,
        Purchase.eq_of_state (Option.some.inj hst).symm (.inr (.inl rfl))⟩
  · intro m cfg q c _ _ ih halone
    exact ih fun u hu => halone u (List.mem_append_left _ hu)
  · intro m s q ih halone
    exact ih fun u hu => halone u (List.mem_append_left _ hu)
  · intro m cfg q op r' s' g h' ih hg hok hE halone
    have hs := ih fun u hu => halone u (List.mem_append_left _ hu)
    obtain rfl : q = pid := halone _ (List.mem_append_right _ List.mem_cons_self) q op r' rfl
    obtain ⟨g', hg', hhas⟩ := h'.ghost_keeps (K := Stage.Has key id r) body_follows
      (fun r hK hok => hK.next r hok) ⟨_, hsent, .inl rfl⟩
    obtain rfl : g = g' := Option.some.inj (hg.symm.trans hg')
    rcases hhas with rfl | ⟨rec, rfl⟩
    · rcases sent_ok hok with hn | ⟨rop, rfl, hrop⟩
      · exact Neutral.stored hn hs hE
      · rwa [record_rejected hrop hrec hE]
    · exact Neutral.stored (recorded_ok hok) hs hE

/-- **A finished dispatch is settled** when its outcome is recordable, in every run
whose transactions commit; where no other call acts after the purchase and the
intent is still dispatching, only then. -/
theorem dispatch_settles {out : Except Exc OrderSnapshot}
    (h : Run ordersSystem Store.empty tr cfg) (ha : Available tr) (htr : tr = l ++ t :: m)
    (ht : t.event = .act pid (.purchase request) r)
    (hkey : request.requestKey = str "purchase:" ++ id)
    (hend : cfg.result? pid = some out) :
    (Recordable r → Settled cfg.store id) ∧
      (t.pre.1.purchaseState id = some .dispatching →
        (∀ u ∈ m, ∀ q op r', u.event = .act q op r' → q = pid) →
        (Settled cfg.store id ↔ Recordable r)) := by
  have hsettled (hrec : Recordable r) : Settled cfg.store id := by
    obtain ⟨key, hsent⟩ := purchase_stage h htr ht hkey
    have h' := h
    rw [htr, List.append_cons] at h'
    obtain ⟨g, hg, hhas⟩ := h'.ghost_keeps (K := Stage.Has key id r) body_follows
      (fun r hK hok => hK.next r hok) ⟨_, hsent, .inl rfl⟩
    rw [← List.append_cons, ← htr] at hg
    obtain ⟨c, g', hg', hends⟩ := h.ended (P := callProtocol) (i := ServiceCall.stage)
      body_follows hend
    obtain rfl : g = g' := Option.some.inj (hg.symm.trans hg')
    rcases hhas with rfl | ⟨rec, rfl⟩
    · obtain rfl : r = .error .fatal := hends
      exact hrec.elim
    · exact recorded_settled h ha hg hrec
  refine ⟨hsettled, fun hpre halone => ⟨fun hs => ?_, hsettled⟩⟩
  by_contra hrec
  obtain ⟨L, o, hR, ho, hd⟩ := undisturbed_dispatching h htr ht hkey hpre halone hrec
  exact ((hR.settled ho).1 hs).2 hd

end run

end

/-! ## Dispatches of the sample order -/

section

attribute [local instance] sampleUnicode sampleHashlib

theorem sampleRun_available (purchase : Except Exc PurchaseResult)
    (reconcile : Except Exc ReconciliationResult) (moves : List (Move ordersSystem)) :
    Available (sampleRun purchase reconcile moves).1 := by
  unfold sampleRun
  cases h : replay ordersSystem (sampleAnswer purchase reconcile) Store.empty moves with
  | none => exact fun t ht => by cases ht
  | some st => exact fun t ht pid op r he => replay_answers h t ht pid (.repo op) r he

/-- The purchase that is sent in a step: by whom, its key and its outcome. -/
def purchase? (t : Trans ordersSystem) : Option (Nat × Str × Except Exc PurchaseResult) :=
  match t.event with
  | .act pid (.purchase request) r => some (pid, request.requestKey, r)
  | _ => none

/-- Where a step of the trace sends a purchase, the trace splits there. -/
theorem split_purchase {tr : OrdersTrace} {n pid : Nat} {key : Str}
    {r : Except Exc PurchaseResult} (h : tr[n]?.bind purchase? = some (pid, key, r)) :
    ∃ l t m request, tr = l ++ t :: m ∧ request.requestKey = key ∧
      t.event = .act pid (.purchase request) r := by
  obtain ⟨t, ht, hp⟩ := Option.bind_eq_some_iff.1 h
  obtain ⟨hn, rfl⟩ := List.getElem?_eq_some_iff.1 ht
  unfold purchase? at hp
  split at hp
  · next pid' request r' he =>
    cases hp
    refine ⟨tr.take n, _, tr.drop (n + 1), request, ?_, rfl, he⟩
    rw [← List.drop_eq_getElem_cons hn, List.take_append_drop]
  · cases hp

/-- The sample order, with this answer of the supplier. -/
def sampleDispatch (purchase : Except Exc PurchaseResult) : OrdersTrace × Cfg ordersSystem :=
  sampleRun purchase (.ok .unresolved)
    (.start 0 (.placeOrder (str "cust-1") sampleRequest) :: go 0 14)

theorem sampleDispatch_run (purchase : Except Exc PurchaseResult) : Run ordersSystem Store.empty
    (sampleDispatch purchase).1 (sampleDispatch purchase).2 :=
  sampleRun_run _ _ _

theorem sampleDispatch_available (purchase : Except Exc PurchaseResult) :
    Available (sampleDispatch purchase).1 :=
  sampleRun_available _ _ _

/-- An empty reference is refused by the record, and the intent stays dispatching. -/
theorem dispatch_stays_dispatching : ¬ ∀ (tr l m : OrdersTrace) (t : Trans ordersSystem)
    (cfg : Cfg ordersSystem) (pid : Nat) (id : Str) (request : SupplierPurchaseRequest)
    (r : Except Exc PurchaseResult) (out : Except Exc OrderSnapshot),
    Run ordersSystem Store.empty tr cfg → Available tr → tr = l ++ t :: m →
      t.event = .act pid (.purchase request) r → request.requestKey = str "purchase:" ++ id →
      cfg.result? pid = some out → Settled cfg.store id := by
  intro hall
  obtain ⟨hp, hout, hst⟩ :
      (sampleDispatch (.ok (.succeeded (some [])))).1[13]?.bind purchase? =
        some (0, str "purchase:" ++ sampleIntent, .ok (.succeeded (some []))) ∧
      (sampleDispatch (.ok (.succeeded (some [])))).2.result? 0 =
        some (.error (.order .invalidOrderInput)) ∧
      (sampleDispatch (.ok (.succeeded (some [])))).2.store.1.purchaseState sampleIntent =
        some .dispatching := by decide +kernel
  obtain ⟨l, t, m, request, htr, hkey, ht⟩ := split_purchase hp
  obtain ⟨st, h, -, hne⟩ := hall _ l m t _ 0 sampleIntent request _ _ (sampleDispatch_run _)
    (sampleDispatch_available _) htr ht hkey hout
  exact hne (Option.some.inj (h.symm.trans hst))

theorem dispatch_settles_sample :
    Settled (sampleDispatch (.ok (.succeeded (some (str "ref-1"))))).2.store sampleIntent := by
  obtain ⟨hp, hout⟩ :
      (sampleDispatch (.ok (.succeeded (some (str "ref-1"))))).1[13]?.bind purchase? =
        some (0, str "purchase:" ++ sampleIntent, .ok (.succeeded (some (str "ref-1")))) ∧
      ((sampleDispatch (.ok (.succeeded (some (str "ref-1"))))).2.result? 0).isSome = true := by
    decide +kernel
  obtain ⟨l, t, m, request, htr, hkey, ht⟩ := split_purchase hp
  obtain ⟨out, hout⟩ := Option.isSome_iff_exists.1 hout
  exact (dispatch_settles (sampleDispatch_run _) (sampleDispatch_available _) htr ht hkey hout).1
    ⟨str "ref-1", rfl, by decide⟩

end

end NyanShopBot.Orders
