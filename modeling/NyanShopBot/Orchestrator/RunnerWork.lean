import NyanShopBot.Orchestrator.RunnerOutlines

/-!
# Outlines of budget and agents

A launch needs the budget: `checkBudget` finds it (`Affords`), the number of the launch is
stored (`Ready`), and only then an agent is launched with it (`Goes.launch`). Its account
moves what was spent and whether all of it is known, and nothing else.
-/

namespace NyanShopBot.Orchestrator

open Py Db Conc

section

variable [UnicodeData] {s : Service} {task : TaskSpec} {token : Str} {w : World} {α β : Type}
  {p : RunPhase} {F : Core → List EventRow → Prop} {run : RunRow} {head : Option Str} {rounds : Int}

/-! ## Reading -/

/-- The core is as the row says. -/
structure RunRow.Matches (run : RunRow) (c : Core) : Prop where
  head : c.head = run.headSha
  fixRounds : c.fixRounds = run.fixRounds
  invocations : c.invocations = run.agentInvocations
  spent : c.spent = run.enforceableTokens

omit [UnicodeData] in
theorem RunRow.Shows.matches {v : View} (h : run.Shows v) : run.Matches v.core :=
  ⟨h.head, h.fixRounds, h.invocations, h.spent⟩

/-- The row that was read: it was of a view of the phase, which is known of the run still. -/
theorem Goes.getRun (hF : Upward F) (hp : p.isTerminal = false)
    (hw : Knows s.runId task s.me (Runs s token p F) w) :
    Goes s task token (fun run w => run.task = task ∧ (∃ c log, F c log ∧ run.Matches c) ∧
      Knows s.runId task s.me (Runs s token p fun c log => F c log ∧ run.Matches c) w)
      s.getRun w := by
  refine keeps_mono (fun r w h => ?_) (keeps_getRun
    (K := fun run => Runs s token p fun c log => F c log ∧ run.Matches c) (.runs hF hp)
    (fun run v _ hv hshows => ⟨hv.1, hv.2.1, hv.2.2, hshows.matches⟩) hw)
  cases r with
  | ok run =>
    obtain ⟨hknows, v, hgood, hv, hshows⟩ := h
    exact ⟨hshows.task.symm.trans hgood.task, ⟨v.core, v.log, hv.2.2, hshows.matches⟩, hknows⟩
  | error e => exact h.leased .runs

/-- A quiet part of a phase. -/
theorem Goes.after {Q : β → World → Prop} {q : ServiceProg α} {f : α → ServiceProg β}
    (hF : Upward F) (hp : p.isTerminal = false) (hq : Quietly s q)
    (hw : Knows s.runId task s.me (Runs s token p F) w)
    (hf : ∀ a w, Knows s.runId task s.me (Runs s token p F) w → Goes s task token Q (f a) w) :
    Goes s task token Q (q >>= f) w :=
  .bind (.quietly (.runs hF hp) .runs hq hw) hf

theorem Goes.getOrRaise {Q : β → World → Prop} {message : Str} {o : Option α}
    {f : α → ServiceProg β} (hw : Knows s.runId task s.me (Runs s token p F) w)
    (hf : ∀ a, o = some a → Goes s task token Q (f a) w) :
    Goes s task token Q (Orchestrator.getOrRaise message o >>= f) w := by
  cases o with
  | none => exact .raise .runs hw
  | some a => exact hf a rfl

/-- A quiet end of a phase. -/
theorem Goes.ends {q : ServiceProg α} (hF : Upward F) (hp : p.isTerminal = false)
    (hq : Quietly s q) (hw : Knows s.runId task s.me (Runs s token p F) w) :
    Holds s task token q w :=
  (Goes.quietly (.runs hF hp) .runs hq hw).mono fun _ _ h => h.leased .runs

/-! ## Budget -/

/-- There is budget for one more launch of the role. -/
structure Affords (task : TaskSpec) (role : Role) (c : Core) : Prop where
  invocations : c.invocations < task.budget.maxAgentInvocations
  accounted : c.unaccounted = false
  spent : ∃ spent, c.spent role = some spent ∧ spent < task.budget.tokenCeiling role

/-- The ledger, which is read while the runner holds the lease. -/
theorem Goes.hasUnenforceableUsage (hF : Upward F) (hp : p.isTerminal = false)
    (hw : Knows s.runId task s.me (Runs s token p F) w) :
    Goes s task token (fun b w => Knows s.runId task s.me
      (Runs s token p fun c log => F c log ∧ c.unaccounted = b) w)
      (s.store (.hasUnenforceableUsage s.runId)) w := by
  refine Goes.transaction (o := .hasUnenforceableUsage s.runId)
    (Q := fun b => Runs s token p fun c log => F c log ∧ c.unaccounted = b) (.runs hF hp) .runs
    (fun t t' launched phases v b hbody hv hgood hPv => ?_) hw
  obtain ⟨hheld, hmark, hFv⟩ := hPv
  show ∃ v', t'.1.view s.runId launched (phases ++ []) = some v' ∧ _
  rw [List.append_nil, hasUnenforceableUsage_ok hbody]
  refine ⟨v, hv, List.prefix_refl _, hgood, ⟨id, id⟩, hheld, hmark, hFv, ?_⟩
  obtain ⟨row, -, rfl⟩ := view_eq_some.1 hv
  have hbody : Orchestrator.hasUnenforceableUsage s.runId t = .ok (b, t') := hbody
  unfold Orchestrator.hasUnenforceableUsage at hbody
  obtain ⟨-, hbody⟩ := bindAll_bind_ok.1 hbody
  rw [Tx.query_bind] at hbody
  exact (Tx.pure_ok.1 hbody).1.symm

theorem Goes.checkBudget (role : Role) (hF : Upward F) (hp : p.isTerminal = false)
    (htask : run.task = task)
    (hw : Knows s.runId task s.me (Runs s token p fun c log => F c log ∧ run.Matches c) w) :
    Goes s task token (fun _ w => Knows s.runId task s.me
      (Runs s token p fun c log => F c log ∧ run.Matches c ∧ Affords task role c) w)
      (s.checkBudget run role) w := by
  have hup := hF.and (.core run.Matches)
  refine .check .runs hw fun hinvocations => ?_
  refine .bind (.hasUnenforceableUsage hup hp hw) fun unaccounted w hw => ?_
  refine .check .runs hw fun haccounted => ?_
  refine .getOrRaise hw fun total htotal => ?_
  refine .check .runs hw fun hceiling => ?_
  refine Goes.after (hup.and (.core _)) hp (.remainingSeconds _) hw fun _ w hw => ?_
  refine Goes.pure (hw.mono fun v _ hv => ?_)
  obtain ⟨hheld, hmark, ⟨hFv, hmatches⟩, hun⟩ := hv
  refine ⟨hheld, hmark, hFv, hmatches, ?_, hun.trans haccounted, total, ?_, htask ▸ hceiling⟩
  · rw [hmatches.invocations, ← htask]
    exact hinvocations
  · rw [hmatches.spent]
    exact htotal

/-! ## Launches -/

/-- The head and the round that are worked on. -/
def At (head : Option Str) (rounds : Int) (c : Core) : Prop := c.head = head ∧ c.fixRounds = rounds

/-- The number of the launch is stored, and no agent was launched with it. -/
structure Ready (task : TaskSpec) (role : Role) (attempt : Int) (c : Core) : Prop where
  stored : c.invocations = attempt
  count : (c.launched.length : Int) < attempt
  fresh : ∀ l ∈ c.launched, l.attempt < attempt
  accounted : c.unaccounted = false
  spent : ∃ spent, c.spent role = some spent ∧ spent < task.budget.tokenCeiling role

omit [UnicodeData] in
/-- The number of the next launch is stored. -/
theorem Affords.ready {role : Role} {c d : Core} (h : Affords task role c) (hwithin : c.Within)
    (htask : c.task = task) (htask' : d.task = c.task) (hrounds : d.fixRounds = c.fixRounds)
    (hnext : d.invocations = c.invocations + 1) (hspent : d.spent = c.spent)
    (hun : d.unaccounted = c.unaccounted) (hlaunched : d.launched = c.launched) :
    d.Within ∧ Ready task role (c.invocations + 1) d := by
  have hroom := h.invocations
  have hcount := hwithin.count
  refine ⟨⟨?_, ?_, ?_, fun l hl => ?_, ?_, ?_, ?_⟩, hnext, ?_, fun l hl => ?_, ?_, ?_⟩
  · rw [htask', htask, hnext]; omega
  · rw [htask', hrounds]; exact hwithin.fixRounds
  · rw [hlaunched, hnext]; omega
  · have := hwithin.attempts l (hlaunched ▸ hl)
    omega
  · rw [hlaunched]; exact hwithin.increasing
  · rw [hlaunched, htask']; exact hwithin.affordable
  · rw [hlaunched]; exact hwithin.held
  · rw [hlaunched]; omega
  · have := hwithin.attempts l (hlaunched ▸ hl)
    omega
  · rw [hun]; exact h.accounted
  · rw [hspent]; exact h.spent

omit [UnicodeData] in
theorem Core.Within.launch (me : Process) (token : Str) {role : Role} {attempt : Int}
    {c : Core} (h : c.Within) (hready : Ready c.task role attempt c) :
    Core.Within { c with launched := c.launched ++
      [⟨me, some (token, me), role, attempt, c.spent role, c.unaccounted⟩] } := by
  refine ⟨h.invocations, h.fixRounds, ?_, fun l hl => ?_, ?_, fun l hl => ?_, fun l hl => ?_⟩
  · show ((c.launched ++ [_]).length : Int) ≤ c.invocations
    have hcount := hready.count
    have hstored := hready.stored
    simp only [List.length_append, List.length_cons, List.length_nil]
    omega
  · rcases List.mem_append.1 hl with hl | hl
    · exact h.attempts l hl
    · rw [List.mem_singleton.1 hl]
      exact hready.stored.ge
  · refine List.pairwise_append.2 ⟨h.increasing, List.pairwise_singleton _ _, fun l hl m hm => ?_⟩
    rw [List.mem_singleton.1 hm]
    exact hready.fresh l hl
  · rcases List.mem_append.1 hl with hl | hl
    · exact h.affordable l hl
    · rw [List.mem_singleton.1 hl]
      exact ⟨hready.accounted, hready.spent⟩
  · rcases List.mem_append.1 hl with hl | hl
    · exact h.held l hl
    · rw [List.mem_singleton.1 hl]
      exact ⟨token, rfl⟩

/-- **A launch** of an agent whose number is stored. -/
theorem Goes.launch {role : Role} {name : Str} {attempt : Int} (hp : p.isWork = true)
    (hw : Knows s.runId task s.me
      (Runs s token p fun c _ => At head rounds c ∧ Ready task role attempt c) w) :
    Goes s task token (fun _ w => Knows s.runId task s.me
      (Runs s token p fun c _ => At head rounds c) w) (s.launch run role name attempt) w := by
  have hterm := RunPhase.not_isTerminal_of_isWork hp
  refine Goes.after (.core _) hterm .getRun hw fun current w hw => ?_
  have hcall : Goes s task token (fun _ w => Knows s.runId task s.me
      (Runs s token p fun c _ => At head rounds c) w) (s.await (.launch role name attempt)) w := by
    refine Goes.mono (fun _ _ h => h.1) (Goes.call
      (Q := fun _ => Runs s token p fun c _ => At head rounds c) (K := fun _ => True)
      (.runs (.core _) hterm) .runs (fun w w' v r heff hv hgood hPv => ?_) hw)
    obtain ⟨hheld, rfl, hat, hready⟩ := hPv
    cases heff with
    | launch agent hages =>
      obtain ⟨row, hrow, rfl⟩ := view_eq_some.1 hv
      have hlaunch : w.launch s.runId s.me role attempt = ⟨s.me, some (token, s.me), role,
          attempt, row.enforceableTokens role, w.tables.unaccounted s.runId⟩ := by
        unfold World.launch World.row
        rw [hrow, ← (hheld : row.holder = some (token, s.me))]
        rfl
      have hwithin := hgood.within.launch s.me token (hgood.task.symm ▸ hready)
      refine .inr ⟨agent, _, rfl, view_eq_some.2 ⟨row, hrow, rfl⟩, List.prefix_refl _, ?_,
        ⟨id, id⟩, ⟨hheld, rfl, hat⟩, trivial⟩
      rw [hlaunch]
      exact hgood.recore hp rfl rfl (fun _ => rfl) hwithin
  refine .bind hcall fun agent w hw => ?_
  refine Goes.after (.core _) hterm (.callbacks _ _ _ _) hw fun _ w hw => ?_
  exact .quietly (.runs (.core _) hterm) .runs (.ofExcept _) hw

/-! ## Accounts -/

theorem Goes.accountInvocation {invocation : Invocation} {session : Str} {usage : Usage}
    (hp : p.isWork = true)
    (hw : Knows s.runId task s.me (Runs s token p fun c _ => At head rounds c) w) :
    Goes s task token (fun _ w => Knows s.runId task s.me
      (Runs s token p fun c _ => At head rounds c) w)
      (s.accountInvocation run invocation session usage) w := by
  have hterm := RunPhase.not_isTerminal_of_isWork hp
  refine Goes.after (.core _) hterm (.ask _) hw fun digest w hw => ?_
  refine Goes.after (.core _) hterm (.ask _) hw fun now w hw => ?_
  have hcall : Goes s task token (fun _ w => Knows s.runId task s.me
      (Runs s token p fun c _ => At head rounds c) w)
      (s.store (.recordInvocationUsage (s.usageCall run invocation session usage digest) now))
      w := by
    refine Goes.transaction (Q := fun _ => Runs s token p fun c _ => At head rounds c)
      (.runs (.core _) hterm) .runs (fun t t' launched phases v record hbody hv hgood hPv => ?_) hw
    obtain ⟨hheld, rfl, hat⟩ := hPv
    obtain ⟨spent, unaccounted, more, hv'⟩ := view_recordUsage rfl hbody hv
    show ∃ v', t'.1.view s.runId launched (phases ++ []) = some v' ∧ _
    rw [List.append_nil]
    refine ⟨_, hv', List.prefix_append _ _, ?_, ⟨id, id⟩, hheld, rfl, hat⟩
    have hcore := hgood.recore (c := { v.core with spent := spent, unaccounted := unaccounted })
      hp rfl rfl (fun _ => rfl) (hgood.within.congr rfl rfl rfl rfl)
    exact hcore.keep rfl rfl (.inl rfl) (List.prefix_append _ _)
  refine .bind hcall fun record w hw => ?_
  exact .check .runs hw fun _ => .pure hw

theorem Goes.accountAgent {invocation : Invocation} {agent : AgentInvocation}
    (hp : p.isWork = true)
    (hw : Knows s.runId task s.me (Runs s token p fun c _ => At head rounds c) w) :
    Goes s task token (fun _ w => Knows s.runId task s.me
      (Runs s token p fun c _ => At head rounds c) w) (s.accountAgent run invocation agent) w := by
  have hterm := RunPhase.not_isTerminal_of_isWork hp
  refine Goes.after (.core _) hterm (.replayInvocationActivity _) hw fun _ w hw => ?_
  refine Goes.after (.core _) hterm (.whenever (.appendEvent _ _)) hw fun _ w hw => ?_
  exact .accountInvocation hp hw

end

end NyanShopBot.Orchestrator
