import Mathlib.Logic.Relation
import NyanShopBot.Conc.Session

/-!
# Rely and guarantee

`Keeps eff rely guar Q p s`: while others move the store by `rely`, every step of `p` from
`s` is one of `guar`, and `p` ends in `Q`. A `Stable` assertion holds until the program
takes its next step; the rules take a program apart by such assertions, and `keeps_frame`
passes over a part that keeps one. `Run.keeps` puts the processes together: where each of
them may rely on what the ones beside it guarantee, all keep their outlines in every run.
`Run.interrupted` runs one process with another in its middle.
-/

namespace Conc

variable {S : Sig} {ε α β σ : Type}

/-- The program meets its guarantee in steps that others come between. -/
def Keeps (eff : Effect S ε σ) (rely guar : σ → σ → Prop) (Q : Except ε α → σ → Prop) :
    Prog S ε α → σ → Prop
  | .ret a, s => Q (.ok a) s
  | .raise e, s => Q (.error e) s
  | .call op k, s => ∀ s₁, Relation.ReflTransGen rely s s₁ → ∀ r s₂, eff s₁ op r s₂ →
      guar s₁ s₂ ∧ Keeps eff rely guar Q (k r) s₂

/-- What others do does not change that `P` holds. -/
def Stable (rely : σ → σ → Prop) (P : σ → Prop) : Prop := ∀ s s', rely s s' → P s → P s'

theorem Stable.and {rely : σ → σ → Prop} {P R : σ → Prop} (hP : Stable rely P)
    (hR : Stable rely R) : Stable rely fun s => P s ∧ R s :=
  fun s s' h hs => ⟨hP s s' h hs.1, hR s s' h hs.2⟩

theorem Stable.steps {rely : σ → σ → Prop} {P : σ → Prop} (hP : Stable rely P) {s s' : σ}
    (h : Relation.ReflTransGen rely s s') (hs : P s) : P s' := by
  induction h with
  | refl => exact hs
  | tail _ hstep ih => exact hP _ _ hstep ih

section keeps

variable {eff : Effect S ε σ} {rely guar : σ → σ → Prop} {s s' : σ} {P : σ → Prop}

theorem keeps_mono {Q R : Except ε α → σ → Prop} (h : ∀ r s, Q r s → R r s) :
    ∀ {p : Prog S ε α} {s : σ}, Keeps eff rely guar Q p s → Keeps eff rely guar R p s
  | .ret _, _, hp => h _ _ hp
  | .raise _, _, hp => h _ _ hp
  | .call _ _, _, hp => fun s₁ h₁ r s₂ h₂ =>
    ⟨(hp s₁ h₁ r s₂ h₂).1, keeps_mono h (hp s₁ h₁ r s₂ h₂).2⟩

/-- A program after another goes on where that one ends. -/
theorem keeps_bind {Q : Except ε β → σ → Prop} {R : Except ε α → σ → Prop} {f : α → Prog S ε β}
    (hok : ∀ a s, R (.ok a) s → Keeps eff rely guar Q (f a) s)
    (herr : ∀ e s, R (.error e) s → Q (.error e) s) :
    ∀ {p : Prog S ε α} {s : σ}, Keeps eff rely guar R p s → Keeps eff rely guar Q (p >>= f) s
  | .ret a, s, hp => hok a s hp
  | .raise e, s, hp => herr e s hp
  | .call _ _, _, hp => fun s₁ h₁ r s₂ h₂ =>
    ⟨(hp s₁ h₁ r s₂ h₂).1, keeps_bind hok herr (hp s₁ h₁ r s₂ h₂).2⟩

theorem keeps_attempt {Q : Except ε (Except ε α) → σ → Prop} :
    ∀ {p : Prog S ε α} {s : σ}, Keeps eff rely guar (fun r s => Q (.ok r) s) p s →
      Keeps eff rely guar Q p.attempt s
  | .ret _, _, hp => hp
  | .raise _, _, hp => hp
  | .call _ _, _, hp => fun s₁ h₁ r s₂ h₂ =>
    ⟨(hp s₁ h₁ r s₂ h₂).1, keeps_attempt (hp s₁ h₁ r s₂ h₂).2⟩

theorem keeps_ofExcept {Q : Except ε α → σ → Prop} {r : Except ε α} :
    Keeps eff rely guar Q (.ofExcept r) s ↔ Q r s := by
  cases r <;> rfl

theorem keeps_ensure {Q : Except ε Unit → σ → Prop} {c : Prop} [Decidable c] {e : ε}
    (hok : c → Q (.ok ()) s) (herr : ¬ c → Q (.error e) s) :
    Keeps eff rely guar Q (.ensure c e) s := by
  unfold Prog.ensure
  by_cases h : c
  · rw [if_pos h]; exact hok h
  · rw [if_neg h]; exact herr h

/-- **One step**, from an assertion that is stable until it is taken. -/
theorem keeps_perform {o : S.Op} {Q : Except ε (S.Res o) → σ → Prop} (hP : Stable rely P)
    (hs : P s) (h : ∀ s r s', P s → eff s o r s' → guar s s' ∧ Q r s') :
    Keeps eff rely guar Q (.perform o) s := by
  intro s₁ h₁ r s₂ h₂
  obtain ⟨hg, hQ⟩ := h s₁ r s₂ (hP.steps h₁ hs) h₂
  refine ⟨hg, ?_⟩
  cases r <;> exact hQ

/-- **The frame rule**: a part whose calls all keep a stable assertion keeps it. -/
theorem keeps_frame {C : S.Op → Prop} {R : Except ε α → Prop} (hP : Stable rely P)
    (hC : ∀ op, C op → ∀ s r s', P s → eff s op r s' → guar s s' ∧ P s') :
    ∀ {p : Prog S ε α} {s : σ}, Calls C R p → P s →
      Keeps eff rely guar (fun r s => P s ∧ R r) p s
  | .ret _, _, h, hs => ⟨hs, h⟩
  | .raise _, _, h, hs => ⟨hs, h⟩
  | .call op _, _, h, hs => fun s₁ h₁ r s₂ h₂ =>
    have hstep := hC op h.1 s₁ r s₂ (hP.steps h₁ hs) h₂
    ⟨hstep.1, keeps_frame hP hC (h.2 r) hstep.2⟩

/-- What every call keeps, and others do too, is still there in the end. -/
theorem keeps_and {K : σ → Prop} {Q : Except ε α → σ → Prop} (hK : Stable rely K)
    (heff : ∀ s op r s', K s → eff s op r s' → K s') :
    ∀ {p : Prog S ε α} {s : σ}, Keeps eff rely guar Q p s → K s →
      Keeps eff rely guar (fun r s => Q r s ∧ K s) p s
  | .ret _, _, h, hs => ⟨h, hs⟩
  | .raise _, _, h, hs => ⟨h, hs⟩
  | .call _ _, _, h, hs => fun s₁ h₁ r s₂ h₂ =>
    have hstep := h s₁ h₁ r s₂ h₂
    ⟨hstep.1, keeps_and hK heff hstep.2 (heff _ _ _ _ (hK.steps h₁ hs) h₂)⟩

/-- What is left of a program does not mind what others do. -/
theorem Keeps.others {p : Prog S ε α} (h : Keeps eff rely guar (fun _ _ => True) p s)
    (hr : rely s s') : Keeps eff rely guar (fun _ _ => True) p s' := by
  cases p with
  | ret a => trivial
  | raise e => trivial
  | call op k => exact fun s₁ h₁ => h s₁ (.head hr h₁)

end keeps

/-! ## Processes side by side -/

/-- The process is on its way through the call. -/
def Cfg.Doing {A : System S ε} (cfg : Cfg A) (pid : Nat) (c : A.Call) : Prop :=
  ∃ op k, cfg.procs pid = some ⟨c, some (.call op k)⟩

/-- The calls that are under way at the same time are related by `ok`. -/
def Beside (A : System S ε) (s₀ : A.Store) (ok : A.Call → A.Call → Prop)
    (tr : List (Trans A)) : Prop :=
  ∀ l m cfg, tr = l ++ m → Run A s₀ l cfg → ∀ q q' c c', q ≠ q' → cfg.Doing q c →
    cfg.Doing q' c' → ok c c'

section run

variable {A : System S ε} {s₀ : A.Store} {tr : List (Trans A)} {cfg : Cfg A}
variable {ok : A.Call → A.Call → Prop}

theorem Beside.left {t : Trans A} (h : Beside A s₀ ok (tr ++ [t])) : Beside A s₀ ok tr :=
  fun l m cfg htr => h l (m ++ [t]) cfg (by rw [htr, List.append_assoc])

/-- It is enough that any two calls that were ever started are related. -/
theorem Beside.of_starts (h : ∀ t ∈ tr, ∀ u ∈ tr, ∀ q q' c c', t.event = .start q c →
    u.event = .start q' c' → q ≠ q' → ok c c') : Beside A s₀ ok tr := by
  rintro l m cfg rfl hrun q q' c c' hne ⟨op, k, hq⟩ ⟨op', k', hq'⟩
  obtain ⟨t, ht, hc⟩ := hrun.started hq
  obtain ⟨u, hu, hc'⟩ := hrun.started hq'
  exact h t (List.mem_append_left _ ht) u (List.mem_append_left _ hu) q q' c c' hc hc' hne

/-- **Rely and guarantee**: processes that may rely on each other keep their outlines, and
the invariant that their guarantees keep. -/
theorem Run.keeps {rely guar : A.Call → A.Store → A.Store → Prop} {I : A.Store → Prop}
    (hbody : ∀ c s, I s → Keeps A.eff (rely c) (guar c) (fun _ _ => True) (A.body c) s)
    (hinv : ∀ c s s', I s → guar c s s' → I s')
    (hrely : ∀ c c' s s', ok c c' → I s → guar c s s' → rely c' s s')
    (h : Run A s₀ tr cfg) (h₀ : I s₀) (hbeside : Beside A s₀ ok tr) :
    I cfg.store ∧ ∀ pid c p, cfg.procs pid = some ⟨c, some p⟩ →
      Keeps A.eff (rely c) (guar c) (fun _ _ => True) p cfg.store := by
  induction h with
  | nil => exact ⟨h₀, fun pid c p hp => by cases hp⟩
  | @start tr cfg q c hrun hq ih =>
    obtain ⟨hI, hkeeps⟩ := ih hbeside.left
    refine ⟨hI, fun pid c' p hp => ?_⟩
    by_cases e : pid = q
    · subst e
      obtain ⟨rfl, rfl⟩ : c = c' ∧ A.body c = p := by simpa using hp
      exact hbody c cfg.store hI
    · exact hkeeps pid c' p (by simpa [Function.update_of_ne e] using hp)
  | @act tr cfg q c op k r s' hrun hq he ih =>
    obtain ⟨hI, hkeeps⟩ := ih hbeside.left
    obtain ⟨hg, hk⟩ := hkeeps q c _ hq cfg.store .refl r s' he
    refine ⟨hinv c _ _ hI hg, fun pid c' p hp => ?_⟩
    by_cases e : pid = q
    · subst e
      obtain ⟨rfl, rfl⟩ : c = c' ∧ k r = p := by simpa using hp
      exact hk
    · have hp : cfg.procs pid = some ⟨c', some p⟩ := by
        simpa [Function.update_of_ne e] using hp
      cases p with
      | ret a => trivial
      | raise e => trivial
      | call op' k' =>
        have hok : ok c c' := hbeside tr _ cfg rfl hrun q pid c c' (Ne.symm e) ⟨op, k, hq⟩
          ⟨op', k', hp⟩
        exact (hkeeps pid c' _ hp).others (hrely c c' _ _ hok hI hg)
  | @crash tr cfg q c p' hrun hq ih =>
    obtain ⟨hI, hkeeps⟩ := ih hbeside.left
    refine ⟨hI, fun pid c' p hp => ?_⟩
    by_cases e : pid = q
    · subst e; simp at hp
    · exact hkeeps pid c' p (by simpa [Function.update_of_ne e] using hp)

end run

/-! ## A process in the middle of another -/

section interrupted

variable {eff : Effect S ε σ}

/-- So many steps of a program, as far as `answer` knows what its calls return. -/
def Prog.steps (answer : σ → (op : S.Op) → Option (Except ε (S.Res op) × σ)) :
    Nat → Prog S ε α → σ → Prog S ε α × σ
  | 0, p, s => (p, s)
  | _ + 1, .ret a, s => (.ret a, s)
  | _ + 1, .raise e, s => (.raise e, s)
  | n + 1, .call op k, s =>
    match answer s op with
    | none => (.call op k, s)
    | some (r, s') => steps answer n (k r) s'

theorem Exec.of_steps {answer : σ → (op : S.Op) → Option (Except ε (S.Res op) × σ)}
    (h : ∀ s op r s', answer s op = some (r, s') → eff s op r s') (n : Nat) (p : Prog S ε α)
    (s : σ) : Exec eff s p (p.steps answer n s).2 (p.steps answer n s).1 := by
  induction n generalizing p s with
  | zero => exact .refl s p
  | succ n ih =>
    cases p with
    | ret a => exact .refl s _
    | raise e => exact .refl s _
    | call op k =>
      unfold Prog.steps
      cases ha : answer s op with
      | none => exact .refl s _
      | some rs => exact .step (h s op rs.1 rs.2 ha) (ih (k rs.1) rs.2)

variable {A : System S ε} {s₀ : A.Store} {tr : List (Trans A)} {cfg : Cfg A} {c : A.Call}

/-- A process goes on with no other step between its own. -/
theorem Run.exec {pid : Nat} {p p' : Prog S ε A.Out} {s s' : A.Store} (hx : Exec A.eff s p s' p')
    (h : Run A s₀ tr cfg) (hp : cfg.procs pid = some ⟨c, some p⟩) (hs : cfg.store = s) :
    ∃ more cfg', Run A s₀ (tr ++ more) cfg' ∧ cfg'.store = s' ∧
      cfg'.procs = Function.update cfg.procs pid (some ⟨c, some p'⟩) ∧
      ∀ t ∈ more, ∃ op r, t.event = .act pid op r := by
  induction hx generalizing tr cfg with
  | refl s p =>
    exact ⟨[], cfg, by simpa using h, hs, by rw [← hp, Function.update_eq_self], by simp⟩
  | step he _ ih =>
    subst hs
    obtain ⟨more, cfg', hrun, hstore, hprocs, hacts⟩ := ih (.act h hp he) (by simp) rfl
    refine ⟨_ :: more, cfg', by simpa using hrun, hstore, ?_, fun t ht => ?_⟩
    · rw [hprocs, Function.update_idem]
    · rcases List.mem_cons.1 ht with rfl | ht
      · exact ⟨_, _, rfl⟩
      · exact hacts t ht

/-- **A call, with another in its middle**, is a run. -/
theorem Run.interrupted {ok : A.Call → A.Call → Prop} {d : A.Call} {p p' q : Prog S ε A.Out}
    {s₁ s₂ s₃ : A.Store} (hfirst : Exec A.eff s₀ (A.body c) s₁ p)
    (hother : Exec A.eff s₁ (A.body d) s₂ q) (hrest : Exec A.eff s₂ p s₃ p')
    (hok : ok c d) (hok' : ok d c) :
    ∃ tr cfg, Run A s₀ tr cfg ∧ cfg.store = s₃ ∧ Beside A s₀ ok tr := by
  obtain ⟨l₁, cfg₁, hrun₁, hstore₁, hprocs₁, hacts₁⟩ :=
    Run.exec hfirst (.start 0 c (.nil : Run A s₀ [] _) rfl) (Function.update_self 0 _ _) rfl
  have hfree : cfg₁.procs 1 = none := by rw [hprocs₁]; rfl
  obtain ⟨l₂, cfg₂, hrun₂, hstore₂, hprocs₂, hacts₂⟩ :=
    Run.exec hother (.start 1 d hrun₁ hfree) (Function.update_self 1 _ _) hstore₁
  have hfirst' : cfg₂.procs 0 = some ⟨c, some p⟩ := by rw [hprocs₂, hprocs₁]; rfl
  obtain ⟨l₃, cfg₃, hrun₃, hstore₃, -, hacts₃⟩ := Run.exec hrest hrun₂ hfirst' hstore₂
  refine ⟨_, cfg₃, hrun₃, hstore₃, .of_starts fun t ht u hu q q' e e' he he' hne => ?_⟩
  have hstarts {t : Trans A} {q : Nat} {e : A.Call}
      (ht : t ∈ [] ++ [⟨s₀, .start 0 c, s₀⟩] ++ l₁ ++ [⟨cfg₁.store, .start 1 d, cfg₁.store⟩] ++
        l₂ ++ l₃) (he : t.event = .start q e) : q = 0 ∧ e = c ∨ q = 1 ∧ e = d := by
    have hact {l : List (Trans A)} {pid : Nat} (hl : ∀ t ∈ l, ∃ op r, t.event = .act pid op r) :
        t ∉ l := fun h => by
      obtain ⟨op, r, hact⟩ := hl t h
      rw [he] at hact
      cases hact
    simp only [List.mem_append, List.mem_singleton, List.not_mem_nil, hact hacts₁, hact hacts₂,
      hact hacts₃, false_or, or_false] at ht
    rcases ht with rfl | rfl
    · cases he
      exact .inl ⟨rfl, rfl⟩
    · cases he
      exact .inr ⟨rfl, rfl⟩
  rcases hstarts ht he with ⟨rfl, rfl⟩ | ⟨rfl, rfl⟩ <;>
    rcases hstarts hu he' with ⟨rfl, rfl⟩ | ⟨rfl, rfl⟩
  · exact absurd rfl hne
  · exact hok
  · exact hok'
  · exact absurd rfl hne

end interrupted

end Conc
