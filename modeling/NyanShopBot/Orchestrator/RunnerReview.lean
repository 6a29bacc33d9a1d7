import NyanShopBot.Orchestrator.RunnerWriter

/-!
# Outlines of CI and of the reviewer

`CI_WAITING` is left for the reviewer with `ci.passed` of the head (`Goes.awaitCi`), and the
reviewer hands over the head that it started from: its verdict is of that head, which is
the one that CI has passed (`Goes.finishReview`). `Goes.runPhase` puts the phases together.
-/

namespace NyanShopBot.Orchestrator

open Py Db Conc

section

variable [UnicodeData] {s : Service} {task : TaskSpec} {token : Str} {w : World} {α β : Type}
  {p : RunPhase} {F : Core → List EventRow → Prop} {run : RunRow} {head : Option Str} {rounds : Int}

theorem Goes.ofExcept {Q : β → World → Prop} {r : Except RunnerError α} {f : α → ServiceProg β}
    (hw : Knows s.runId task s.me (Runs s token p F) w)
    (hf : ∀ a, r = .ok a → Goes s task token Q (f a) w) :
    Goes s task token Q (.ofExcept r >>= f) w := by
  cases r with
  | error e => exact .raise .runs hw
  | ok a => exact hf a rfl

/-! ## Decisions -/

omit [UnicodeData] in
/-- A decision is for another round, which there is, or for the owner. -/
theorem reviewDecision_ok {result : ReviewResult} {fixRounds maxFixRounds : Int}
    {decision : RunPhase × Int} (h : reviewDecision result fixRounds maxFixRounds = .ok decision) :
    (decision.1 = .fixRequested ∧ decision.2 ≤ maxFixRounds) ∨
      (decision.1 ≠ .fixRequested ∧ result.verdict = .pass) := by
  unfold reviewDecision at h
  cases hverdict : result.verdict with
  | blocked =>
    rw [hverdict] at h
    cases h
  | changesRequested =>
    rw [hverdict] at h
    simp only at h
    split at h
    · cases h
    · obtain rfl := Except.ok.inj h
      refine .inl ⟨rfl, ?_⟩
      show fixRounds + 1 ≤ maxFixRounds
      omega
  | pass =>
    rw [hverdict] at h
    obtain rfl := Except.ok.inj h
    exact .inr ⟨by rintro ⟨⟩, rfl⟩

omit [UnicodeData] in
/-- A commit is no `None`. -/
theorem isSha_pyStr {o : Option Str} (h : CiGate.isSha (pyStr o) = true) : o = some (pyStr o) := by
  cases o with
  | none => exact absurd h (by decide)
  | some head => rfl

/-- What the reviewer has found of the head that it works on. -/
structure Found (runId : Str) (head : Option Str) (rounds : Int) (result : ReviewResult)
    (c : Core) (log : List EventRow) : Prop where
  here : At head rounds c
  reviewed : c.reviewed = some result.reviewedHeadSha
  vetted : result.verdict = .pass → Vetted runId (pyStr head) log

omit [UnicodeData] in
theorem Upward.found {result : ReviewResult} : Upward (Found s.runId head rounds result) :=
  fun _ _ _ hlog h => ⟨h.here, h.reviewed, fun hpass => (h.vetted hpass).mono hlog⟩

/-- The owner is given the head that was passed. -/
theorem Goes.handOver {payload : List (Str × Json)} {result : Review}
    (hexact : result.reviewedHeadSha = pyStr head) (hpass : result.verdict = .pass)
    (hw : Knows s.runId task s.me
      (Runs s token .reviewRunning (Found s.runId head rounds result.toReviewResult)) w) :
    Holds s task token (s.transition .readyForOwner payload) w := by
  refine Goes.transaction (Q := fun _ => Leased s token) (.runs .found rfl) .runs
    (fun t t' launched phases v u hbody hv hgood hPv => ?_) hw
  obtain ⟨hheld, hmark, hfound⟩ := hPv
  have hhead : head = some (pyStr head) := isSha_pyStr (hexact ▸ result.sha)
  refine ⟨_, view_transition hbody hv, List.prefix_append _ _,
    hgood.enter_ready (hfound.here.1.trans hhead) (hexact ▸ hfound.reviewed)
      (hfound.vetted hpass), ⟨fun _ => rfl, fun hb => ?_⟩, hheld⟩
  rw [hmark] at hb
  cases hb

theorem Goes.applyDecision {result : Review} {decision : RunPhase × Int} (htask : run.task = task)
    (hexact : result.reviewedHeadSha = pyStr head)
    (hdecision : reviewDecision result.toReviewResult run.fixRounds run.task.budget.maxFixRounds =
      .ok decision)
    (hw : Knows s.runId task s.me
      (Runs s token .reviewRunning (Found s.runId head rounds result.toReviewResult)) w) :
    Holds s task token (s.applyDecision run (pyStr head) result.toReviewResult decision) w := by
  have hdone : Quietly s (s.updateRun [.reviewStartedHeadSha none]) :=
    .updateRun (by simp [RunField.isQuiet, RunField.isPlain])
  show Goes s task token _ (if decision.1 = .fixRequested then _ else _) w
  rcases reviewDecision_ok hdecision with ⟨hfix, hmax⟩ | ⟨hready, hpass⟩
  · rw [if_pos hfix]
    have hround := Goes.updateRun [.fixRounds decision.2] (G := fun _ _ => True)
      .found rfl (by simp [RunField.isPlain]) (fun v hgood _ => ⟨⟨hgood.within.invocations, ?_,
        hgood.within.count, hgood.within.attempts, hgood.within.increasing,
        hgood.within.affordable, hgood.within.held⟩, fun _ => rfl, trivial⟩) hw
    · refine .bind hround fun _ w hw => ?_
      refine .bind (.transition (q := .fixRequested) (.core _) rfl rfl (by rintro ⟨⟩) hw)
        fun _ w hw => ?_
      exact .ends (.core _) rfl hdone hw
    · show decision.2 ≤ v.core.task.budget.maxFixRounds
      rw [hgood.task, ← htask]
      exact hmax
  · rw [if_neg hready]
    refine .bind (.handOver hexact hpass hw) fun _ w hw => ?_
    exact .quietly .leased .leased
      (.bind (.whenever (.appendEvent _ _)) fun _ => hdone) hw

/-! ## The reviewer -/

/-- **`finishReview`**: the verdict is noted of the head that CI has passed. -/
theorem Goes.finishReview {result : Review} {session path : Str} {recovered : Bool}
    (htask : run.task = task)
    (hw : Knows s.runId task s.me
      (Runs s token .reviewRunning fun c _ => At run.headSha run.fixRounds c) w) :
    Holds s task token
      (s.finishReview run (pyStr run.headSha) result session path recovered) w := by
  refine Goes.after (.core _) rfl (.remainingSeconds _) hw fun _ w hw => ?_
  refine Goes.after (.core _) rfl .headSha hw fun actual w hw => ?_
  refine .check .runs hw fun hexact => ?_
  obtain ⟨hexact, -⟩ := hexact
  refine Goes.after (.core _) rfl (.requireClean _) hw fun _ w hw => ?_
  have hreviewed := Goes.updateRun [.reviewedHeadSha (some result.reviewedHeadSha)]
    (G := fun c _ => At run.headSha run.fixRounds c ∧ c.reviewed = some result.reviewedHeadSha)
    (.core _) rfl (by simp [RunField.isPlain])
    (fun v hgood hat => ⟨hgood.within.congr rfl rfl rfl rfl, fun _ => rfl, hat, rfl⟩) hw
  refine .bind hreviewed fun _ w hw => ?_
  have hnoted := Goes.appendEvent (str "review.result")
    (Service.reviewPayload result.toReviewResult session path recovered)
    (G := Found s.runId run.headSha run.fixRounds result.toReviewResult) (.core _) rfl
    (fun v hgood hmark hv => ⟨hv.1, hv.2, fun hpass => ?_⟩) hw
  · refine .bind hnoted fun _ w hw => ?_
    exact .ofExcept hw fun decision hdecision => .applyDecision htask hexact hdecision hw
  · have hci := hgood.review hmark
    rw [hv.1.1] at hci
    refine hci.vetted ⟨rfl, rfl, _, rfl, ?_, ?_⟩
    · rw [← hpass]
      rfl
    · rw [← hexact]
      rfl

theorem Goes.launchReview {name : Str} (htask : run.task = task)
    (hw : Knows s.runId task s.me
      (Runs s token .reviewRunning fun c _ => At run.headSha run.fixRounds c) w) :
    Holds s task token (s.launchReview run name (pyStr run.headSha)) w := by
  refine Goes.after (.core _) rfl (.whenever (.updateRun
    (by simp [RunField.isQuiet, RunField.isPlain]))) hw fun _ w hw => ?_
  refine .bind (.getRun (.core _) rfl hw) fun current w hcurrent => ?_
  refine .bind (.checkBudget .reviewer (.core _) rfl hcurrent.1 hcurrent.2.2)
    fun _ w hw => ?_
  refine .bind (.getRun (.core _) rfl hw) fun latest w hlatest => ?_
  obtain ⟨-, ⟨c, log, hc, hmatches⟩, hw⟩ := hlatest
  have hat : latest.headSha = run.headSha ∧ latest.fixRounds = run.fixRounds :=
    ⟨hmatches.head.symm.trans hc.1.1, hmatches.fixRounds.symm.trans hc.1.2⟩
  have hw : Knows s.runId task s.me (Runs s token .reviewRunning fun c _ =>
      latest.Matches c ∧ Affords task .reviewer c) w :=
    hw.mono fun v _ hv => ⟨hv.1, hv.2.1, hv.2.2.2, hv.2.2.1.2.2⟩
  refine Goes.after (.core _) rfl (.remainingSeconds _) hw fun _ w hw => ?_
  refine .bind (.storeAttempt rfl rfl hat hw) fun _ w hw => ?_
  refine .bind (.launch rfl hw) fun out w hw => ?_
  exact .bind (.accountAgent rfl hw) fun _ w hw => .finishReview htask hw

theorem Goes.runReview (hw : Knows s.runId task s.me (Works s token .reviewRunning) w) :
    Holds s task token s.runReview w := by
  refine .bind (.getRun (.core _) rfl hw) fun run w hrun => ?_
  obtain ⟨htask, -, hw⟩ := hrun
  have hw : Knows s.runId task s.me
      (Runs s token .reviewRunning fun c _ => At run.headSha run.fixRounds c) w :=
    hw.mono fun v _ hv => ⟨hv.1, hv.2.1, hv.2.2.2.head, hv.2.2.2.fixRounds⟩
  refine Goes.after (.core _) rfl (.requireHead _ _) hw fun _ w hw => ?_
  refine Goes.after (.core _) rfl (.requireClean _) hw fun _ w hw => ?_
  have hrecover : Quietly s (s.recoverReview run (.attempt .reviewer (reviewName run.fixRounds)
      run.agentInvocations) (pyStr run.headSha)) :=
    .ite (.bind (.replayInvocationActivity _) fun _ => .ask _) (.pure _)
  refine Goes.after (.core _) rfl hrecover hw fun recovered w hw => ?_
  cases recovered with
  | none => exact .launchReview htask hw
  | some recovered =>
    obtain ⟨result, session, usage⟩ := recovered
    refine .bind (.accountInvocation rfl hw) fun _ w hw => ?_
    exact Goes.after (.core _) rfl (.ask _) hw fun path w hw => .finishReview htask hw

/-! ## CI -/

theorem Goes.requestCiFix {failure : CiGate.CiFailed}
    (hw : Knows s.runId task s.me (Works s token .ciWaiting) w) :
    Holds s task token (s.requestCiFix failure) w := by
  refine keeps_mono (fun r w h => ?_) (requestCiFix_keeps (R := Leased s token) failure
    (.runs (.core _) rfl) (fun v round more dead hgood hv _ hround => ⟨?_, hv.1⟩) hw)
  · cases r with
    | ok u => exact h
    | error e => exact h.leased .runs
  · refine .of_holder hv.1 (List.prefix_append _ _) (hgood.fixed hround) fun _ => ⟨fun hh => ?_,
      fun hb => ?_⟩
    · rw [hgood.not_handed (by rw [hv.2.1]; rfl)] at hh
      cases hh
    · rw [hv.2.1] at hb
      cases hb

/-- Evidence is of the head that CI was asked for. -/
theorem Goes.waitForCi {head : Str} (hw : Knows s.runId task s.me (Runs s token p F) w)
    (hF : Upward F) (hp : p.isTerminal = false) :
    Goes s task token (fun verdict w => Knows s.runId task s.me (Runs s token p F) w ∧
      ∀ e, verdict = .evidence e → e.headSha = head) (s.ask (.waitForCi head)) w := by
  refine Goes.call (o := .ask (.waitForCi head)) (Q := fun _ => Runs s token p F)
    (K := fun verdict => ∀ e, verdict = .evidence e → e.headSha = head) (.runs hF hp) .runs
    (fun w w' v r heff hv hgood hPv => ?_) hw
  cases heff with
  | ask _ hadmits =>
    cases r with
    | error e => exact .inl ⟨e, rfl, hv⟩
    | ok verdict =>
      refine .inr ⟨verdict, v, rfl, hv, List.prefix_refl _, hgood, ⟨id, id⟩, hPv, ?_⟩
      rintro evidence rfl
      obtain ⟨fuel, ciTask, timeout, reads, hexec⟩ := hadmits
      have hdecided : CiGate.Decided ciTask head reads (.evidence evidence) :=
        Safe.returns hexec trivial (CiGate.waitForCi_backed fuel timeout) _ rfl
      obtain ⟨-, -, -, -, -, -, -, -, -, hhead, -⟩ := hdecided
      exact hhead

/-- **`awaitCi`**: a reviewer gets the head that CI has passed. -/
theorem Goes.awaitCi
    (hw : Knows s.runId task s.me (Runs s token .ciWaiting fun c _ => run.Matches c) w) :
    Holds s task token (s.awaitCi run) w := by
  refine Goes.after (.core _) rfl (.requireHead _ _) hw fun _ w hw => ?_
  refine Goes.after (.core _) rfl (.remainingSeconds _) hw fun _ w hw => ?_
  refine .bind (.waitForCi hw (.core _) rfl) fun verdict w hverdict => ?_
  obtain ⟨hw, hhead⟩ := hverdict
  cases verdict with
  | failed failure => exact .requestCiFix hw.works
  | evidence evidence =>
    refine Goes.after (.core _) rfl (.updateRun
      (by simp [RunField.isQuiet, RunField.isPlain])) hw fun _ w hw => ?_
    have hup : Upward fun c log => CiPassed s.runId (pyStr c.head) log :=
      fun _ _ _ hlog h => h.mono hlog
    have hpassed := Goes.appendEvent (str "ci.passed")
      [(str "head_sha", .str evidence.headSha), (str "url", .str evidence.runUrl)]
      (G := fun c log => CiPassed s.runId (pyStr c.head) log) (.core _) rfl
      (fun v _ _ hmatches => ⟨_, List.mem_append_right _ (List.mem_singleton_self _), rfl, rfl,
        _, rfl, ?_⟩) hw
    · refine .bind hpassed fun _ w hw => ?_
      refine Goes.mono (fun _ _ h => h.leased .runs)
        (.transition (q := .reviewRunning) hup rfl rfl (fun _ _ _ h => h) hw)
    · rw [hmatches.head, ← hhead evidence rfl]
      rfl

/-! ## All phases -/

theorem Goes.startRun (hw : Knows s.runId task s.me (Works s token .created) w) :
    Holds s task token s.startRun w := by
  refine Goes.after (.core _) rfl (.remainingSeconds _) hw fun _ w hw => ?_
  refine Goes.after (.core _) rfl (.ask _) hw fun _ w hw => ?_
  refine Goes.after (.core _) rfl (.ask _) hw fun _ w hw => ?_
  exact Goes.mono (fun _ _ h => h.leased .runs)
    (.transition (q := .claimed) (.core _) rfl rfl (by rintro ⟨⟩) hw)

theorem Goes.publishHead (hw : Knows s.runId task s.me (Works s token .workerComplete) w) :
    Holds s task token (s.publishHead run) w := by
  refine Goes.after (.core _) rfl (.requireHead _ _) hw fun _ w hw => ?_
  refine Goes.after (.core _) rfl (.remainingSeconds _) hw fun _ w hw => ?_
  refine Goes.after (.core _) rfl (.ask _) hw fun _ w hw => ?_
  refine Goes.after (.core _) rfl (.ask _) hw fun pull w hw => ?_
  refine Goes.after (.core _) rfl (.ask _) hw fun _ w hw => ?_
  have hwrite := Goes.updateRun [.prNumber (some pull.1), .prUrl (some pull.2),
      .reviewedHeadSha none, .ciRunId none, .ciUrl none]
    (G := fun _ _ => True) (.core _) rfl (by simp [RunField.isPlain])
    (fun v hgood _ => ⟨hgood.within.congr rfl rfl rfl rfl, by rintro ⟨⟩, trivial⟩) hw
  refine .bind hwrite fun _ w hw => ?_
  exact Goes.mono (fun _ _ h => h.leased .runs)
    (.transition (q := .ciWaiting) (.core _) rfl rfl (by rintro ⟨⟩) hw)

/-- The merge of a run that was handed over is delivered. -/
theorem Goes.completeMainDelivery {mergeSha currentHead : Str}
    (hw : Knows s.runId task s.me (Works s token .ownerMerged) w) :
    Holds s task token (s.completeMainDelivery mergeSha currentHead) w := by
  refine Goes.after (.core _) rfl .getRun hw fun run w hw => ?_
  refine .check .runs hw fun _ => ?_
  refine Goes.after (.core _) rfl (.mainDelivery _ _) hw fun url w hw => ?_
  have hcomplete (payload : List (Str × Json)) :
      Holds s task token (s.transition .completed payload) w := by
    refine Goes.transaction (Q := fun _ => Leased s token) (.runs (.core _) rfl) .runs
      (fun t t' launched phases v u hbody hv hgood hPv => ?_) hw
    have hhanded := hgood.gate (by rw [hPv.2.1]; rfl)
    refine ⟨_, view_transition hbody hv, List.prefix_append _ _,
      hgood.enter_merged (.inr rfl) hhanded, ⟨fun hh => hh, fun hb => ?_⟩, hPv.1⟩
    rw [hPv.2.1] at hb
    cases hb
  refine .bind (hcomplete _) fun _ w hw => ?_
  exact .quietly .leased .leased
    (.bind .releaseClaimIfAgentIdle fun _ => .ensure _ _) hw

/-- **Each phase ends with the lease.** -/
theorem Goes.runPhase
    (hw : Knows s.runId task s.me (Runs s token run.phase fun c _ => run.Matches c) w) :
    Holds s task token (s.runPhase run) w := by
  unfold Service.runPhase
  generalize run.phase = phase at hw
  cases phase with
  | created => exact .startRun hw.works
  | claimed | fixRequested => exact .runWorker rfl hw.works
  | workerRunning => exact .recoverInterruptedWorker hw.works
  | workerComplete => exact .publishHead hw.works
  | ciWaiting => exact .awaitCi hw
  | reviewRunning => exact .runReview hw.works
  | ownerMerged => exact .completeMainDelivery hw.works
  | _ => exact .raise .runs hw

end

end NyanShopBot.Orchestrator
