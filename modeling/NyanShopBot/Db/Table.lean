import Mathlib.Data.List.Nodup
import NyanShopBot.Py.Basic

/-!
# Tables, constraints and transactions

A table is the list of its rows; `lookup` and `modify` select and update the
rows with one key. A `Schema` is what the database enforces on every statement:
constraints on the stored tables and triggers on a change of them. `Schema.Store`
is a set of tables that meets its constraints, so no statement can break one. A
`Tx` is the body of a transaction; `Tx.commit` runs it and rolls back when it
raises. `Tx.bind_ok` and its companions take a committed transaction apart.
-/

namespace Db

/-! ## Rows by key -/

section table

variable {ρ κ : Type} [DecidableEq κ]

/-- `SELECT … WHERE key = k`, for a unique key. -/
def lookup (key : ρ → κ) (rows : List ρ) (k : κ) : Option ρ := rows.find? fun r => key r = k

/-- `UPDATE … WHERE key = k`. -/
def modify (key : ρ → κ) (rows : List ρ) (k : κ) (f : ρ → ρ) : List ρ :=
  rows.map fun r => if key r = k then f r else r

variable {key : ρ → κ} {rows : List ρ} {k k' : κ} {f : ρ → ρ} {r : ρ}

@[simp] theorem lookup_nil : lookup key [] k = none := rfl

theorem mem_of_lookup (h : lookup key rows k = some r) : r ∈ rows := List.mem_of_find?_eq_some h

theorem key_of_lookup (h : lookup key rows k = some r) : key r = k := by
  simpa using List.find?_some h

theorem lookup_eq_none : lookup key rows k = none ↔ ∀ r ∈ rows, key r ≠ k := by
  simp [lookup, List.find?_eq_none]

/-- With unique keys a row is what its key selects. -/
theorem lookup_of_mem (key : ρ → κ) (hn : (rows.map key).Nodup) (hr : r ∈ rows) :
    lookup key rows (key r) = some r := by
  cases h : lookup key rows (key r) with
  | none => exact absurd rfl (lookup_eq_none.1 h r hr)
  | some r' => rw [List.inj_on_of_nodup_map hn (mem_of_lookup h) hr (key_of_lookup h)]

theorem lookup_append : lookup key (rows ++ [r]) k =
    (lookup key rows k).or (if key r = k then some r else none) := by
  unfold lookup
  rw [List.find?_append]
  by_cases h : key r = k <;> simp [h]

theorem lookup_modify_self (hf : ∀ r, key r = k → key (f r) = k) :
    lookup key (modify key rows k f) k = (lookup key rows k).map f := by
  induction rows with
  | nil => rfl
  | cons a rows ih =>
    simp only [lookup, modify, List.map_cons, List.find?_cons] at ih ⊢
    by_cases h : key a = k
    · simp [h, hf a h]
    · simp [h, ih]

theorem lookup_modify_other (hk : k' ≠ k) (hf : ∀ r, key r = k → key (f r) = k) :
    lookup key (modify key rows k f) k' = lookup key rows k' := by
  induction rows with
  | nil => rfl
  | cons a rows ih =>
    simp only [lookup, modify, List.map_cons, List.find?_cons] at ih ⊢
    by_cases h : key a = k
    · simp [h, hf a h, Ne.symm hk, ih]
    · simp [h, ih]

theorem mem_modify : r ∈ modify key rows k f ↔
    ∃ a ∈ rows, r = if key a = k then f a else a := by
  simp [modify, eq_comm]

/-- A column that the update keeps has the same values in the same order. -/
theorem map_modify {β : Type} {col : ρ → β} (hf : ∀ r, key r = k → col (f r) = col r) :
    (modify key rows k f).map col = rows.map col := by
  unfold modify
  rw [List.map_map]
  refine List.map_congr_left fun a _ => ?_
  by_cases h : key a = k <;> simp [h, hf]

/-- An update that keeps a second key and a column is not seen through them. -/
theorem lookup_modify_map {κ' β : Type} [DecidableEq κ'] {key' : ρ → κ'} {col : ρ → β}
    (hkey : ∀ r, key' (f r) = key' r) (hcol : ∀ r, col (f r) = col r) (k' : κ') :
    (lookup key' (modify key rows k f) k').map col = (lookup key' rows k').map col := by
  induction rows with
  | nil => rfl
  | cons a rows ih =>
    have hk : key' (if key a = k then f a else a) = key' a := by split <;> simp [hkey]
    have hc : col (if key a = k then f a else a) = col a := by split <;> simp [hcol]
    unfold lookup modify at ih ⊢
    rw [List.map_cons, List.find?_cons, List.find?_cons, hk]
    by_cases h : key' a = k'
    · simp [h, hc]
    · rw [decide_eq_false h]
      exact ih

theorem modify_congr {g : ρ → ρ} (h : ∀ r ∈ rows, key r = k → f r = g r) :
    modify key rows k f = modify key rows k g := by
  unfold modify
  refine List.map_congr_left fun r hr => ?_
  by_cases e : key r = k
  · simp [e, h r hr e]
  · simp [e]

/-- With unique keys an update changes one position. -/
theorem modify_eq_set (hn : (rows.map key).Nodup) {n : Nat} (h : rows[n]? = some r) :
    modify key rows (key r) f = rows.set n (f r) := by
  obtain ⟨hlt, rfl⟩ := List.getElem?_eq_some_iff.1 h
  refine List.ext_getElem (by simp [modify]) fun i hi _ => ?_
  have hi' : i < rows.length := by simpa [modify] using hi
  simp only [modify, List.getElem_map, List.getElem_set]
  by_cases e : n = i
  · subst e; simp
  · have hne : key rows[i] ≠ key rows[n] := fun h' => by
      have hinj := List.nodup_iff_injective_get.1 hn
      have hfin := @hinj ⟨n, by simpa using hlt⟩ ⟨i, by simpa using hi'⟩ (by simpa using h'.symm)
      exact e (Fin.val_eq_of_eq hfin)
    rw [if_neg hne, if_neg e]

theorem filter_modify {p : ρ → Bool} (hf : ∀ r ∈ rows, key r = k → p (f r) = p r) :
    (modify key rows k f).filter p = modify key (rows.filter p) k f := by
  induction rows with
  | nil => rfl
  | cons a rows ih =>
    have ha := hf a List.mem_cons_self
    have ih := ih fun r hr => hf r (List.mem_cons_of_mem _ hr)
    simp only [modify, List.map_cons, List.filter_cons] at ih ⊢
    by_cases h : key a = k
    · by_cases hp : p a = true <;> simp [h, ha h, hp, ih]
    · by_cases hp : p a = true <;> simp [h, hp, ih]

/-- An update that adds no row to a selection keeps the order of a column of it. -/
theorem filter_modify_sublist {β : Type} {p : ρ → Bool} {col : ρ → β}
    (hp : ∀ r ∈ rows, key r = k → p (f r) = true → p r = true)
    (hf : ∀ r, col (f r) = col r) :
    (((modify key rows k f).filter p).map col).Sublist ((rows.filter p).map col) := by
  induction rows with
  | nil => exact .slnil
  | cons a rows ih =>
    have ha := hp a List.mem_cons_self
    have ih := ih fun r hr => hp r (List.mem_cons_of_mem _ hr)
    simp only [modify, List.map_cons, List.filter_cons] at ih ⊢
    by_cases h : key a = k
    · rw [if_pos h]
      by_cases hpf : p (f a) = true
      · rw [if_pos hpf, if_pos (ha h hpf), List.map_cons, List.map_cons, hf]
        exact ih.cons_cons _
      · rw [if_neg hpf]
        by_cases hpa : p a = true
        · rw [if_pos hpa]; exact ih.cons _
        · rw [if_neg hpa]; exact ih
    · rw [if_neg h]
      by_cases hpa : p a = true
      · rw [if_pos hpa, if_pos hpa]; exact ih.cons_cons _
      · rw [if_neg hpa, if_neg hpa]; exact ih

/-- With unique keys the rows of one key are the one that it selects. -/
theorem filter_key_eq (hn : (rows.map key).Nodup) (h : lookup key rows k = some r) :
    (rows.filter fun r => key r = k) = [r] := by
  induction rows with
  | nil => cases h
  | cons a rows ih =>
    obtain ⟨ha, hn⟩ := List.nodup_cons.1 hn
    by_cases e : key a = k
    · obtain rfl : a = r := by simpa [lookup, e] using h
      have hnone : (rows.filter fun r => key r = k) = [] :=
        List.filter_eq_nil_iff.2 fun r hr h' =>
          ha (List.mem_map.2 ⟨r, hr, (by simpa using h' : key r = k).trans e.symm⟩)
      simp [e, hnone]
    · have h' : lookup key rows k = some r := by simpa [lookup, e] using h
      simp [e, ih hn h']

/-- An update of rows that are not there changes nothing. -/
theorem modify_of_absent (h : ∀ r ∈ rows, key r ≠ k) : modify key rows k f = rows := by
  unfold modify
  conv_rhs => rw [← List.map_id rows]
  exact List.map_congr_left fun r hr => by simp [h r hr]

/-- With unique keys an update adds at most one row to a selection. -/
theorem length_filter_modify_le {p : ρ → Bool} (hn : (rows.map key).Nodup) :
    ((modify key rows k f).filter p).length ≤ (rows.filter p).length + 1 := by
  induction rows with
  | nil => simp [modify]
  | cons a rows ih =>
    obtain ⟨ha, hn⟩ := List.nodup_cons.1 hn
    by_cases e : key a = k
    · have hrest : modify key rows k f = rows :=
        modify_of_absent fun r hr h => ha (List.mem_map.2 ⟨r, hr, h.trans e.symm⟩)
      have hcons : modify key (a :: rows) k f = f a :: modify key rows k f := by
        simp [modify, e]
      rw [hcons, hrest, List.filter_cons, List.filter_cons]
      split <;> split <;> simp
      omega
    · have hcons : modify key (a :: rows) k f = a :: modify key rows k f := by
        simp [modify, e]
      have ih := ih hn
      rw [hcons, List.filter_cons, List.filter_cons]
      split
      · simp only [List.length_cons]
        omega
      · exact ih

end table

/-! ## Transactions -/

/-- The body of a transaction over a store. -/
abbrev Tx (σ ε : Type) := StateT σ (Except ε)

namespace Tx

variable {σ ε α β : Type}

/-- Commit on a normal end, roll back when the body raises. -/
def commit (m : Tx σ ε α) (s : σ) : Except ε α × σ :=
  match m s with
  | .ok (a, s') => (.ok a, s')
  | .error e => (.error e, s)

/-- Read from the store. -/
def query (f : σ → α) : Tx σ ε α := fun s => .ok (f s, s)

def ofExcept (r : Except ε α) : Tx σ ε α := fun s => r.map (·, s)

/-- Raise `e` unless `c` holds. -/
def ensure (c : Prop) [Decidable c] (e : ε) : Tx σ ε Unit :=
  if c then pure () else throw e

/-- The value of `o`, or raise `e`. -/
def getOrThrow (o : Option α) (e : ε) : Tx σ ε α :=
  match o with
  | some a => pure a
  | none => throw e

/-- Raise what `o` holds. -/
def refuse (o : Option ε) : Tx σ ε Unit :=
  match o with
  | some e => throw e
  | none => pure ()

variable {m : Tx σ ε α} {f : α → Tx σ ε β} {s s' : σ} {a a₁ : α} {b : β} {e : ε}

theorem bind_ok : (m >>= f) s = .ok (b, s') ↔ ∃ a s₁, m s = .ok (a, s₁) ∧ f a s₁ = .ok (b, s') := by
  simp only [bind, StateT.bind]
  cases h : m s with
  | error e => simp [Except.bind]
  | ok p => obtain ⟨a, s₁⟩ := p; simp [Except.bind]

theorem bind_error : (m >>= f) s = .error e ↔
    m s = .error e ∨ ∃ a s₁, m s = .ok (a, s₁) ∧ f a s₁ = .error e := by
  simp only [bind, StateT.bind]
  cases h : m s with
  | error e => simp [Except.bind]
  | ok p => obtain ⟨a, s₁⟩ := p; simp [Except.bind]

/-- A body goes on with what its first part returned. -/
theorem bind_eq (h : m s = .ok (a, s')) : (m >>= f) s = f a s' := by
  simp only [bind, StateT.bind, h, Except.bind]

theorem bind_eq_error (h : m s = .error e) : (m >>= f) s = .error e := by
  simp only [bind, StateT.bind, h, Except.bind]

theorem pure_ok : (pure a : Tx σ ε α) s = .ok (a₁, s') ↔ a₁ = a ∧ s' = s := by
  show Except.ok (a, s) = .ok (a₁, s') ↔ _
  simp [eq_comm]

theorem throw_ok : (throw e : Tx σ ε α) s ≠ .ok (a, s') := by
  intro h; cases h

theorem query_ok {g : σ → α} : query g s = (.ok (a, s') : Except ε _) ↔ a = g s ∧ s' = s := by
  simp [query, eq_comm]

theorem ofExcept_ok {r : Except ε α} : ofExcept r s = .ok (a, s') ↔ r = .ok a ∧ s' = s := by
  cases r <;> simp [ofExcept, Except.map, eq_comm]

theorem ensure_ok {c : Prop} [Decidable c] {u : Unit} :
    ensure c e s = .ok (u, s') ↔ c ∧ s' = s := by
  unfold ensure
  by_cases h : c
  · simp only [h, if_true, true_and]; exact pure_ok.trans (by simp)
  · simp only [h, if_false, false_and, iff_false]; exact throw_ok

theorem ensure_error {c : Prop} [Decidable c] {e' : ε} :
    ensure c e s = .error e' ↔ ¬ c ∧ e' = e := by
  unfold ensure
  by_cases h : c
  · rw [if_pos h]
    exact ⟨nofun, fun h' => absurd h h'.1⟩
  · rw [if_neg h]
    exact ⟨fun h' => ⟨h, (Except.error.inj h').symm⟩, fun h' => by rw [h'.2]; rfl⟩

theorem getOrThrow_ok {o : Option α} : getOrThrow o e s = .ok (a, s') ↔ o = some a ∧ s' = s := by
  cases o with
  | none => simp only [getOrThrow, reduceCtorEq, false_and, iff_false]; exact throw_ok
  | some b => simp only [getOrThrow, Option.some.injEq]; rw [pure_ok]; simp [eq_comm]

theorem refuse_ok {o : Option ε} {u : Unit} : refuse o s = .ok (u, s') ↔ o = none ∧ s' = s := by
  cases o with
  | none => simp only [refuse, true_and]; exact pure_ok.trans (by simp)
  | some e => simp only [refuse, reduceCtorEq, false_and, iff_false]; exact throw_ok

theorem ensure_bind {c : Prop} [Decidable c] {g : Unit → Tx σ ε β} (h : c) :
    (ensure c e >>= g) s = g () s := bind_eq (ensure_ok.2 ⟨h, rfl⟩)

theorem ensure_bind_not {c : Prop} [Decidable c] {g : Unit → Tx σ ε β} (h : ¬ c) :
    (ensure c e >>= g) s = .error e := bind_eq_error (ensure_error.2 ⟨h, rfl⟩)

theorem query_bind {q : σ → α} : (query q >>= f) s = f (q s) s := bind_eq (query_ok.2 ⟨rfl, rfl⟩)

theorem getOrThrow_bind {o : Option α} (h : o = some a) : (getOrThrow o e >>= f) s = f a s :=
  bind_eq (getOrThrow_ok.2 ⟨h, rfl⟩)

theorem ensure_bind_ok {c : Prop} [Decidable c] {g : Unit → Tx σ ε β} :
    (ensure c e >>= g) s = .ok (b, s') ↔ c ∧ g () s = .ok (b, s') := by
  by_cases h : c
  · rw [ensure_bind h]; exact (and_iff_right h).symm
  · rw [ensure_bind_not h]; simp [h]

theorem ensure_bind_error {c : Prop} [Decidable c] {g : Unit → Tx σ ε β} {e' : ε} :
    (ensure c e >>= g) s = .error e' ↔ ¬ c ∧ e' = e ∨ c ∧ g () s = .error e' := by
  by_cases h : c
  · rw [ensure_bind h]
    simp [h]
  · rw [ensure_bind_not h]
    simp [h, eq_comm]

theorem getOrThrow_bind_ok {o : Option α} :
    (getOrThrow o e >>= f) s = .ok (b, s') ↔ ∃ a, o = some a ∧ f a s = .ok (b, s') := by
  cases o with
  | none =>
    constructor
    · intro h; cases h
    · rintro ⟨a, ha, -⟩; cases ha
  | some a => rw [getOrThrow_bind rfl]; simp

/-! ## The errors of a body -/

/-- Every error that the body raises is in `P`. -/
def Raises (P : ε → Prop) (m : Tx σ ε α) : Prop := ∀ s e, m s = .error e → P e

section raises

variable {P : ε → Prop}

theorem Raises.bind (hm : m.Raises P) (hf : ∀ a, (f a).Raises P) : (m >>= f).Raises P := by
  intro s e h
  rcases bind_error.1 h with h | ⟨a, s₁, -, h⟩
  · exact hm s e h
  · exact hf a s₁ e h

theorem raises_pure : (pure a : Tx σ ε α).Raises P := fun _ _ h => nomatch h

theorem raises_query {q : σ → α} : (query q : Tx σ ε α).Raises P := fun _ _ h => nomatch h

theorem raises_ensure {c : Prop} [Decidable c] (h : ¬ c → P e) :
    (ensure c e : Tx σ ε Unit).Raises P := by
  intro s e' he
  obtain ⟨hc, he⟩ := ensure_error.1 he
  exact he ▸ h hc

theorem raises_ofExcept {r : Except ε α} (h : ∀ e, r = .error e → P e) :
    (ofExcept r : Tx σ ε α).Raises P := by
  intro s e he
  cases r with
  | ok a => cases he
  | error _ => cases he; exact h _ rfl

end raises

/-- **A transaction that raises leaves the store unchanged.** -/
theorem commit_error (h : (m.commit s).1 = .error e) : (m.commit s).2 = s := by
  unfold commit at h ⊢
  split
  · next h' => rw [h'] at h; cases h
  · rfl

theorem commit_ok : (m.commit s).1 = .ok a ↔ m s = .ok (a, (m.commit s).2) := by
  unfold commit
  split
  · next h => simp [h]
  · next h => simp [h]

theorem commit_of_ok (h : m s = .ok (a, s')) : m.commit s = (.ok a, s') := by
  unfold commit
  rw [h]

theorem commit_of_error (h : m s = .error e) : m.commit s = (.error e, s) := by
  unfold commit
  rw [h]

/-- A committed transaction either raised or ran its body. -/
theorem commit_cases (m : Tx σ ε α) (s : σ) :
    (∃ e, m.commit s = (.error e, s)) ∨ ∃ a s', m.commit s = (.ok a, s') ∧ m s = .ok (a, s') := by
  unfold commit
  split
  · next a s' h => exact .inr ⟨a, s', rfl, h⟩
  · next e h => exact .inl ⟨e, rfl⟩

end Tx

/-! ## Schemas -/

/-- What the database enforces: constraints on the tables and triggers on a change. -/
structure Schema (T : Type) where
  Valid : T → Prop
  Trigger : T → T → Prop
  decValid : DecidablePred Valid
  decTrigger : DecidableRel Trigger

namespace Schema

variable {T ε : Type} (S : Schema T)

/-- Tables that meet the constraints. -/
abbrev Store := {t : T // S.Valid t}

instance : DecidablePred S.Valid := S.decValid
instance : DecidableRel S.Trigger := S.decTrigger

/-- One statement: it raises `e` where it would break a constraint or a trigger. -/
def execute (e : ε) (f : T → T) : Tx S.Store ε Unit := fun s =>
  if h : S.Valid (f s.1) ∧ S.Trigger s.1 (f s.1) then .ok ((), ⟨f s.1, h.1⟩) else .error e

variable {S}

theorem execute_ok {e : ε} {f : T → T} {s s' : S.Store} {u : Unit} :
    S.execute e f s = .ok (u, s') ↔ s'.1 = f s.1 ∧ S.Trigger s.1 (f s.1) := by
  unfold execute
  split
  · next h =>
    constructor
    · intro h'; cases h'; exact ⟨rfl, h.2⟩
    · rintro ⟨h', -⟩; congr 2; exact Subtype.ext h'.symm
  · next h =>
    simp only [reduceCtorEq, false_iff, not_and]
    intro h' ht; exact h ⟨h' ▸ s'.2, ht⟩

/-- A statement that keeps the constraints and passes the triggers commits. -/
theorem execute_valid {e : ε} {f : T → T} {s : S.Store} (hv : S.Valid (f s.1))
    (ht : S.Trigger s.1 (f s.1)) : S.execute e f s = .ok ((), ⟨f s.1, hv⟩) := by
  unfold execute
  rw [dif_pos ⟨hv, ht⟩]

theorem raises_execute {P : ε → Prop} {e : ε} {f : T → T} (h : P e) :
    (S.execute e f).Raises P := by
  intro s e' he
  unfold execute at he
  split at he
  · cases he
  · cases he; exact h

end Schema

/-! ## Text columns -/

/-- PostgreSQL text holds neither NUL nor surrogates. -/
def storable (s : Py.Str) : Bool := s.all fun c => c.val != 0 && !Py.isSurrogate c

/-- Assign to a `varchar(n)` column: only spaces may be cut off to make it fit. -/
def varchar (n : Nat) (s : Py.Str) : Option Py.Str :=
  if !storable s then none
  else if s.length ≤ n then some s
  else if (s.drop n).all (·.val == 0x20) then some (s.take n)
  else none

/-- A nullable `varchar(n)` column. -/
def varcharOrNull (n : Nat) : Option Py.Str → Option (Option Py.Str)
  | none => some none
  | some s => (varchar n s).map some

theorem varchar_of_fits {n : Nat} {s : Py.Str} (h : storable s = true) (hn : s.length ≤ n) :
    varchar n s = some s := by
  simp [varchar, h, hn]

/-- A text is stored as it is exactly when it fits the column. -/
theorem varchar_eq_iff {n : Nat} {s v : Py.Str} (h : varchar n s = some v) :
    v = s ↔ s.length ≤ n := by
  unfold varchar at h
  split at h
  · cases h
  split at h
  · next hn => cases h; exact ⟨fun _ => hn, fun _ => rfl⟩
  · next hn =>
    split at h
    · cases h
      exact ⟨fun e => absurd (e ▸ List.length_take_le n s) hn, fun e => absurd e hn⟩
    · cases h

theorem storable_of_isprintable [Py.UnicodeData] {s : Py.Str} (h : Py.isprintable s = true) :
    storable s = true := by
  unfold Py.isprintable at h
  unfold storable
  rw [List.all_eq_true] at h ⊢
  intro c hc
  simp [Py.isPrintable_ne_zero (h c hc), Py.isPrintable_not_surrogate (h c hc)]

end Db
