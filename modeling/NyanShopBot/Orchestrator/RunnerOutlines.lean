import NyanShopBot.Orchestrator.RunnerCommands

/-!
# Outlines of a runner

A runner that holds the lease knows the mark of the run and its core (`Runs`), since no
step beside it moves them. `Goes` is an outline that ends with the lease however it ends.
There is one for each phase: the phases of the writer need the budget (`Ready`), those of
CI and of the reviewer what the log says of the head.
-/

namespace NyanShopBot.Orchestrator

open Py Db Conc

section

variable [UnicodeData] {s : Service} {task : TaskSpec} {token : Str} {w : World} {α β : Type}
  {p q : RunPhase} {F G : Core → List EventRow → Prop} {P : View → Prop}

/-! ## What a runner knows -/

/-- The process holds the lease. -/
def Leased (s : Service) (token : Str) (v : View) : Prop := v.holder = some (token, s.me)

/-- The process holds the lease and works on the run in its phase. -/
def Runs (s : Service) (token : Str) (p : RunPhase) (F : Core → List EventRow → Prop)
    (v : View) : Prop :=
  Leased s token v ∧ v.mark = p ∧ F v.core v.log

/-- More events do not hurt. -/
def Upward (F : Core → List EventRow → Prop) : Prop :=
  ∀ c log log', log <+: log' → F c log → F c log'

omit [UnicodeData] in
theorem Lasting.leased : Lasting s.runId task s.me false (Leased s token) :=
  fun _ _ h hv => (h.spares token hv).holder.trans hv

omit [UnicodeData] in
/-- **The others do not move a run that a runner works on.** -/
theorem Lasting.runs (hF : Upward F) (hp : p.isTerminal = false) :
    Lasting s.runId task s.me false (Runs s token p F) := by
  rintro v v' h ⟨hheld, rfl, hFv⟩
  have hspares := h.spares token hheld
  refine ⟨hspares.holder.trans hheld, ?_⟩
  rcases hspares.core with hblocked | ⟨hcore, hmark⟩
  · rw [hblocked] at hp
    cases hp
  · refine ⟨?_, hcore ▸ hF _ _ _ h.log hFv⟩
    rcases hmark with hmark | ⟨hhanded, hmark⟩
    · exact hmark
    · obtain ⟨hgate | hblocked, -⟩ := h.good.handed hhanded
      · rw [hmark]
        generalize v.mark = mark at hp hgate
        cases mark <;> first | rfl | exact absurd hp (by decide) | exact absurd hgate (by decide)
      · rw [hblocked] at hp
        cases hp

omit [UnicodeData] in
theorem Upward.and (hF : Upward F) (hG : Upward G) : Upward fun c log => F c log ∧ G c log :=
  fun c log log' h hv => ⟨hF c log log' h hv.1, hG c log log' h hv.2⟩

omit [UnicodeData] in
theorem Upward.core (C : Core → Prop) : Upward fun c _ => C c := fun _ _ _ _ h => h

omit [UnicodeData] in
theorem RunPhase.not_isTerminal_of_isWork (hp : p.isWork = true) : p.isTerminal = false := by
  cases p <;> first | rfl | cases hp

/-! ## Outlines -/

/-- `Q` where the program returned; it holds the lease where it raised. -/
def Post (s : Service) (task : TaskSpec) (token : Str) (Q : α → World → Prop) :
    Except RunnerError α → World → Prop
  | .ok a, w => Q a w
  | .error _, w => Knows s.runId task s.me (Leased s token) w

/-- The program ends in `Q`, and holds the lease where it raises. -/
def Goes (s : Service) (task : TaskSpec) (token : Str) (Q : α → World → Prop) (p : ServiceProg α)
    (w : World) : Prop :=
  Does s task false (Post s task token Q) p w

/-- The program keeps the lease, however it ends. -/
abbrev Holds (s : Service) (task : TaskSpec) (token : Str) (p : ServiceProg α) (w : World) : Prop :=
  Goes s task token (fun _ w => Knows s.runId task s.me (Leased s token) w) p w

/-- What is known is known of a process that holds the lease. -/
def Holding (s : Service) (token : Str) (P : View → Prop) : Prop := ∀ v, P v → Leased s token v

omit [UnicodeData] in
theorem Holding.runs : Holding s token (Runs s token p F) := fun _ h => h.1

omit [UnicodeData] in
theorem Holding.leased : Holding s token (Leased s token) := fun _ h => h

omit [UnicodeData] in
theorem Knows.leased (hP : Holding s token P) (h : Knows s.runId task s.me P w) :
    Knows s.runId task s.me (Leased s token) w := h.mono fun v _ hv => hP v hv

theorem Goes.mono {Q R : α → World → Prop} {p : ServiceProg α} (h : ∀ a w, Q a w → R a w)
    (hp : Goes s task token Q p w) : Goes s task token R p w :=
  keeps_mono (fun r w hr => by
    cases r with
    | ok a => exact h a w hr
    | error e => exact hr) hp

theorem Goes.bind {Q : β → World → Prop} {R : α → World → Prop} {p : ServiceProg α}
    {f : α → ServiceProg β} (hp : Goes s task token R p w)
    (hf : ∀ a w, R a w → Goes s task token Q (f a) w) : Goes s task token Q (p >>= f) w :=
  keeps_bind (R := Post s task token R) (Q := Post s task token Q) hf (fun _ _ h => h) hp

theorem Goes.quietly {p : ServiceProg α} (hP : Lasting s.runId task s.me false P)
    (hheld : Holding s token P) (hp : Quietly s p) (hw : Knows s.runId task s.me P w) :
    Goes s task token (fun _ w => Knows s.runId task s.me P w) p w :=
  keeps_mono (fun r w h => by
    cases r with
    | ok a => exact h.1
    | error e => exact h.1.leased hheld) (keeps_quiet hP hp hw)

theorem Goes.raise {Q : α → World → Prop} {e : RunnerError} (hheld : Holding s token P)
    (hw : Knows s.runId task s.me P w) : Goes s task token Q (.raise e) w := hw.leased hheld

theorem Goes.pure {Q : α → World → Prop} {a : α} (h : Q a w) : Goes s task token Q (pure a) w := h

theorem Goes.check {Q : β → World → Prop} {c : Prop} [Decidable c] {e : RunnerError}
    {f : Unit → ServiceProg β} (hheld : Holding s token P) (hw : Knows s.runId task s.me P w)
    (hok : c → Goes s task token Q (f ()) w) : Goes s task token Q (.ensure c e >>= f) w :=
  keeps_check hok (hw.leased hheld)

/-- A call of a process that holds the lease. -/
theorem Goes.call {o : ServiceOp} {Q : o.Res → View → Prop} {K : o.Res → Prop}
    (hP : Lasting s.runId task s.me false P) (hheld : Holding s token P)
    (h : ∀ w w' v r, ServiceEffect s.runId w (s.me, o) r w' → w.view s.runId = some v →
      v.Good s.runId task → P v →
        (∃ e, r = .error e ∧ w'.view s.runId = some v) ∨
        ∃ a v', r = .ok a ∧ w'.view s.runId = some v' ∧ v.log <+: v'.log ∧
          v'.Good s.runId task ∧ v.Abides v' ∧ Q a v' ∧ K a)
    (hw : Knows s.runId task s.me P w) :
    Goes s task token (fun a w => Knows s.runId task s.me (Q a) w ∧ K a) (s.await o) w := by
  refine keeps_mono (fun r w hr => ?_) (keeps_call (Q := fun r v => match r with
      | .ok a => Q a v
      | .error _ => Leased s token v) (F := fun r => ∀ a, r = .ok a → K a) hP
    (fun w w' v r heff hv hgood hPv => ?_) hw)
  · cases r with
    | ok a => exact ⟨hr.1, hr.2 a rfl⟩
    | error e => exact hr.1
  · rcases h w w' v r heff hv hgood hPv with ⟨e, rfl, hsame⟩ |
      ⟨a, v', rfl, hv', hlog, hgood', habides, hQ, hK⟩
    · exact ⟨v, hsame, (View.Quiet.refl v).steps hgood, hheld v hPv, by rintro _ ⟨⟩⟩
    · refine ⟨v', hv', .of_holder (hheld v hPv) hlog hgood' fun _ => habides, hQ, fun b hb => ?_⟩
      obtain rfl := Except.ok.inj hb
      exact hK

/-- A transaction of a process that holds the lease. -/
theorem Goes.transaction {o : StoreOp} {Q : o.Res → View → Prop}
    (hP : Lasting s.runId task s.me false P) (hheld : Holding s token P)
    (h : ∀ (t t' : Store) launched phases v a, o.body t = .ok (a, t') →
      t.1.view s.runId launched phases = some v → v.Good s.runId task → P v →
        ∃ v', t'.1.view s.runId launched (phases ++ o.phases (.ok a)) = some v' ∧
          v.log <+: v'.log ∧ v'.Good s.runId task ∧ v.Abides v' ∧ Q a v')
    (hw : Knows s.runId task s.me P w) :
    Goes s task token (fun a w => Knows s.runId task s.me (Q a) w) (s.store o) w := by
  refine Goes.mono (fun _ _ h => h.1) (Goes.call (o := .store o) (Q := Q) (K := fun _ => True)
    hP hheld (fun w w' v r heff hv hgood hPv => ?_) hw)
  rcases heff.store_cases with ⟨e, rfl, hsame⟩ | ⟨a, t', hbody, rfl, hview⟩
  · exact .inl ⟨_, rfl, hsame.trans hv⟩
  · obtain ⟨v', hv', hlog, hgood', habides, hQ⟩ := h _ _ _ _ v a hbody hv hgood hPv
    exact .inr ⟨a, v', rfl, hview.trans hv', hlog, hgood', habides, hQ, trivial⟩

/-! ## Columns and phases -/

omit [UnicodeData] in
theorem Core.assign_task (c : Core) (values : List RunField) : (c.assign values).task = c.task := by
  induction values generalizing c with
  | nil => rfl
  | cons f values ih => exact (ih (c.set f)).trans (by cases f <;> rfl)

omit [UnicodeData] in
theorem Core.assign_handedOver (c : Core) (values : List RunField) :
    (c.assign values).handedOver = c.handedOver := by
  induction values generalizing c with
  | nil => rfl
  | cons f values ih => exact (ih (c.set f)).trans (by cases f <;> rfl)

/-- An update of columns of a run that is worked on. -/
theorem Goes.updateRun (values : List RunField) (hF : Upward F) (hp : p.isWork = true)
    (hplain : ∀ f ∈ values, f.isPlain = true)
    (h : ∀ v : View, v.Good s.runId task → F v.core v.log → (v.core.assign values).Within ∧
      (p = .reviewRunning → (v.core.assign values).head = v.core.head) ∧
      G (v.core.assign values) v.log)
    (hw : Knows s.runId task s.me (Runs s token p F) w) :
    Goes s task token (fun _ w => Knows s.runId task s.me (Runs s token p G) w)
      (s.updateRun values) w := by
  refine Goes.transaction (Q := fun _ => Runs s token p G)
    (.runs hF (RunPhase.not_isTerminal_of_isWork hp)) .runs
    (fun t t' launched phases v u hbody hv hgood hPv => ?_) hw
  obtain ⟨hheld, rfl, hFv⟩ := hPv
  obtain ⟨hwithin, hhead, hG⟩ := h v hgood hFv
  have hnone : StoreOp.phases (.updateRun s.runId values) (.ok u) = [] :=
    List.filterMap_eq_nil_iff.2 fun f hf => RunField.phase?_of_isPlain (hplain f hf)
  rw [hnone, List.append_nil]
  have hhanded := Core.assign_handedOver v.core values
  exact ⟨_, view_updateRun hbody hplain hv, List.prefix_refl _,
    hgood.recore hp (Core.assign_task _ _) hhanded hhead hwithin,
    ⟨fun hh => hhanded.trans hh, id⟩, hheld, rfl, hG⟩

/-- The next phase of work. -/
theorem Goes.transition {payload : List (Str × Json)} (hF : Upward F) (hp : p.isWork = true)
    (hq : q.isWork = true)
    (hci : q = .reviewRunning → ∀ c log, F c log → CiPassed s.runId (pyStr c.head) log)
    (hw : Knows s.runId task s.me (Runs s token p F) w) :
    Goes s task token (fun _ w => Knows s.runId task s.me (Runs s token q F) w)
      (s.transition q payload) w := by
  refine Goes.transaction (Q := fun _ => Runs s token q F)
    (.runs hF (RunPhase.not_isTerminal_of_isWork hp)) .runs
    (fun t t' launched phases v u hbody hv hgood hPv => ?_) hw
  obtain ⟨hheld, rfl, hFv⟩ := hPv
  have hhanded := hgood.not_handed hp
  refine ⟨_, view_transition hbody hv, List.prefix_append _ _,
    hgood.enter_work hq fun he => hci he _ _ hFv, ⟨fun hh => ?_, fun hb => ?_⟩, hheld, ?_, ?_⟩
  · rw [hhanded] at hh
    cases hh
  · rw [hb] at hp
    cases hp
  · exact nextMark_of_ne (RunPhase.ne_stopped_of_isWork hq) _
  · have hcore : (v.enter q ⟨s.runId, q.eventKind, .obj payload, none⟩).core = v.core := by
      unfold View.enter
      rw [nextHanded_of_isWork hq, ← hhanded]
    rw [hcore]
    exact hF _ _ _ (List.prefix_append _ _) hFv

/-- An event, and what it adds to what is known. -/
theorem Goes.appendEvent (kind : Str) (payload : List (Str × Json)) (hF : Upward F)
    (hp : p.isWork = true)
    (h : ∀ v : View, v.Good s.runId task → v.mark = p → F v.core v.log →
      G v.core (v.log ++ [⟨s.runId, kind, .obj payload, none⟩]))
    (hw : Knows s.runId task s.me (Runs s token p F) w) :
    Goes s task token (fun _ w => Knows s.runId task s.me (Runs s token p G) w)
      (s.appendEvent kind payload) w := by
  refine Goes.transaction (Q := fun _ => Runs s token p G)
    (.runs hF (RunPhase.not_isTerminal_of_isWork hp)) .runs
    (fun t t' launched phases v u hbody hv hgood hPv => ?_) hw
  obtain ⟨hheld, hmark, hFv⟩ := hPv
  show ∃ v', t'.1.view s.runId launched (phases ++ []) = some v' ∧ _
  rw [List.append_nil]
  exact ⟨_, view_appendEvent hbody hv, List.prefix_append _ _, hgood.quiet (.log_append _),
    ⟨id, id⟩, hheld, hmark, h v hgood hmark hFv⟩

end

end NyanShopBot.Orchestrator
