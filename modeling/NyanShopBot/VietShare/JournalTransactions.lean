import NyanShopBot.VietShare.Journal

/-!
# What the journal operations do

Each operation that commits is inverted once (`beginAttempt_ok` and its
companions). From these follows what an operation does to a row:
`PreparedWrite.Step` lists the moves, `exec_row` says that a row makes one of
them or stays, and `exec_row_origin` that only `prepare` adds a row.
-/

namespace NyanShopBot.VietShare.Offline

open Py Db

variable {s s' : Store} {operationId key nonce : Str} {body : Bytes} {now timestamp : Int}

theorem execute_eq {e : Exc} {f : Tables → Tables} {u : Unit} :
    journalSchema.execute e f s = .ok (u, s') ↔ s'.1 = f s.1 :=
  Schema.execute_ok.trans (and_iff_left trivial)

theorem operationId_of_write? {t : Tables} {r : PreparedWrite}
    (h : t.write? operationId = some r) : r.operationId = operationId :=
  @key_of_lookup _ _ _ PreparedWrite.operationId _ _ _ h

theorem write?_of_mem {r : PreparedWrite} (h : r ∈ s.1.writes) :
    s.1.write? r.operationId = some r :=
  lookup_of_mem PreparedWrite.operationId s.2.1.1 h

theorem write?_setWrite_self {t : Tables} {f : PreparedWrite → PreparedWrite}
    (hf : ∀ r, (f r).operationId = r.operationId) :
    (t.setWrite operationId f).write? operationId = (t.write? operationId).map f :=
  lookup_modify_self fun r h => (hf r).trans h

theorem write?_setWrite_other {t : Tables} {f : PreparedWrite → PreparedWrite} {id : Str}
    (hid : id ≠ operationId) (hf : ∀ r, (f r).operationId = r.operationId) :
    (t.setWrite operationId f).write? id = t.write? id :=
  lookup_modify_other hid fun r h => (hf r).trans h

/-! ## Inversions -/

theorem prepare_ok {r : PreparedWrite} (h : prepare operationId key body s = .ok (r, s')) :
    (s' = s ∧ r ∈ s.1.writes ∧ r.operationId = operationId ∧ r.idempotencyKey = key ∧
        r.body = body) ∨
      (r = .new operationId key body ∧ s.1.write? operationId = none ∧
        s'.1 = { s.1 with writes := s.1.writes ++ [r] }) := by
  replace h := (Tx.ensure_bind_ok.1 (Tx.ensure_bind_ok.1 h).2).2
  rw [Tx.query_bind] at h
  cases hf : s.1.writes.find? fun r => r.operationId = operationId || r.idempotencyKey = key with
  | some record =>
    rw [hf] at h
    obtain ⟨hr, h⟩ := Tx.ensure_bind_ok.1 h
    obtain ⟨rfl, rfl⟩ := Tx.pure_ok.1 h
    exact .inl ⟨rfl, List.mem_of_find?_eq_some hf, hr⟩
  | none =>
    rw [hf] at h
    obtain ⟨_, _, h3, h⟩ := Tx.bind_ok.1 h
    obtain ⟨rfl, rfl⟩ := Tx.pure_ok.1 h
    refine .inr ⟨rfl, lookup_eq_none.2 fun r hr e => ?_, execute_eq.1 h3⟩
    have := List.find?_eq_none.1 hf r hr
    simp [e] at this

theorem get_ok {r : Option PreparedWrite} (h : get operationId s = .ok (r, s')) :
    r = s.1.write? operationId ∧ s' = s := by
  replace h := (Tx.ensure_bind_ok.1 h).2
  rw [Tx.query_bind] at h
  exact Tx.pure_ok.1 h

theorem beginAttempt_ok {r : Option PreparedWrite}
    (h : beginAttempt operationId now s = .ok (r, s')) :
    (r = none ∧ s' = s) ∨
      ∃ row, s.1.write? operationId = some row ∧ row.begins now = true ∧
        r = some (row.setState .dispatching) ∧
        s'.1 = s.1.setWrite operationId (.setState .dispatching) := by
  replace h := (Tx.ensure_bind_ok.1 (Tx.ensure_bind_ok.1 h).2).2
  rw [Tx.query_bind] at h
  cases hf : (s.1.write? operationId).filter (·.begins now) with
  | none =>
    rw [hf] at h
    exact .inl (Tx.pure_ok.1 h)
  | some row =>
    rw [hf] at h
    obtain ⟨hrow, hb⟩ := Option.filter_eq_some_iff.1 hf
    obtain ⟨_, _, h3, h⟩ := Tx.bind_ok.1 h
    obtain ⟨rfl, rfl⟩ := Tx.pure_ok.1 h
    exact .inr ⟨row, hrow, hb, rfl, execute_eq.1 h3⟩

theorem finishAttempt_ok {state : JournalState} {orderCode : Option Str}
    {retryNotBefore : Option PyFloat} {u : Unit}
    (h : finishAttempt operationId state orderCode retryNotBefore s = .ok (u, s')) :
    state.isOutcome = true ∧ ∃ row, s.1.write? operationId = some row ∧ row.state = .dispatching ∧
      s'.1 = s.1.setWrite operationId (.finished state orderCode (real retryNotBefore)) := by
  obtain ⟨hs, h⟩ := Tx.ensure_bind_ok.1 h
  replace h := (Tx.ensure_bind_ok.1 h).2
  rw [Tx.query_bind] at h
  obtain ⟨row, hf, h⟩ := Tx.getOrThrow_bind_ok.1 h
  obtain ⟨hrow, hd⟩ := Option.filter_eq_some_iff.1 hf
  exact ⟨hs, row, hrow, by simpa using hd, execute_eq.1 h⟩

theorem markInterruptedUnknown_ok {u : Unit}
    (h : markInterruptedUnknown operationId s = .ok (u, s')) :
    ∃ row, s.1.write? operationId = some row ∧ row.state = .dispatching ∧
      s'.1 = s.1.setWrite operationId (.setState .unknown) := by
  replace h := (Tx.ensure_bind_ok.1 h).2
  rw [Tx.query_bind] at h
  obtain ⟨row, hf, h⟩ := Tx.getOrThrow_bind_ok.1 h
  obtain ⟨hrow, hd⟩ := Option.filter_eq_some_iff.1 hf
  exact ⟨row, hrow, by simpa using hd, execute_eq.1 h⟩

theorem reserveAuth_ok {u : Unit} (h : reserveAuth operationId timestamp nonce s = .ok (u, s')) :
    s'.1 = { s.1 with auth := s.1.auth ++ [⟨nonce, operationId, timestamp⟩] } := by
  replace h := (Tx.ensure_bind_ok.1 (Tx.ensure_bind_ok.1 h).2).2
  exact execute_eq.1 h

/-! ## Rows -/

/-- What one operation does to a row. -/
inductive PreparedWrite.Step (r : PreparedWrite) : JournalOp → PreparedWrite → Prop where
  | begins (now : Int) : r.begins now = true →
      Step r (.beginAttempt r.operationId now) (r.setState .dispatching)
  | finishes (state : JournalState) (orderCode : Option Str) (retryNotBefore : Option PyFloat) :
      r.state = .dispatching → state.isOutcome = true →
      Step r (.finishAttempt r.operationId state orderCode retryNotBefore)
        (r.finished state orderCode (real retryNotBefore))
  | interrupted : r.state = .dispatching →
      Step r (.markInterruptedUnknown r.operationId) (r.setState .unknown)

/-- The columns that no operation changes. -/
theorem PreparedWrite.Step.fixed {r r' : PreparedWrite} {op : JournalOp} (h : r.Step op r') :
    r'.operationId = r.operationId ∧ r'.idempotencyKey = r.idempotencyKey ∧ r'.body = r.body := by
  cases h <;> exact ⟨rfl, rfl, rfl⟩

/-- A final row makes no step. -/
theorem PreparedWrite.Step.not_final {r r' : PreparedWrite} {op : JournalOp} (h : r.Step op r') :
    r.state.isFinal = false := by
  cases h with
  | begins now hb =>
    unfold PreparedWrite.begins at hb
    cases hs : r.state <;> simp_all [JournalState.isOpen, JournalState.isFinal]
  | finishes _ _ _ hd _ => rw [hd]; rfl
  | interrupted hd => rw [hd]; rfl

/-- **A row stays as it is or makes one step.** -/
theorem exec_row {op : JournalOp} {r : PreparedWrite} {id : Str}
    (hr : s.1.write? id = some r) :
    (op.exec s).2.1.write? id = some r ∨
      ∃ r', (op.exec s).2.1.write? id = some r' ∧ r.Step op r' := by
  have hid : r.operationId = id := operationId_of_write? hr
  have hkeep {f : PreparedWrite → PreparedWrite} {s' : Store} {row : PreparedWrite}
      {operationId : Str} (hs : s'.1 = s.1.setWrite operationId f)
      (hf : ∀ r, (f r).operationId = r.operationId) (hrow : s.1.write? operationId = some row)
      (hstep : row.operationId = operationId → row.Step op (f row)) :
      s'.1.write? id = some r ∨ ∃ r', s'.1.write? id = some r' ∧ r.Step op r' := by
    rw [hs]
    by_cases e : id = operationId
    · subst e
      obtain rfl : r = row := Option.some.inj (hr.symm.trans hrow)
      exact .inr ⟨f r, by rw [write?_setWrite_self hf, hr]; rfl, hstep hid⟩
    · exact .inl (by rw [write?_setWrite_other e hf, hr])
  rcases Tx.commit_cases op.body s with ⟨e, he⟩ | ⟨a, s', he, hb⟩
  · exact .inl (by rw [JournalOp.exec, he]; exact hr)
  · rw [JournalOp.exec, he]
    cases op with
    | prepare operationId key body =>
      rcases prepare_ok hb with ⟨rfl, -⟩ | ⟨-, -, hs⟩
      · exact .inl hr
      · refine .inl ?_
        show s'.1.write? id = some r
        rw [hs]
        show lookup _ (s.1.writes ++ [a]) id = some r
        rw [lookup_append, show lookup _ s.1.writes id = some r from hr]
        rfl
    | get operationId =>
      obtain ⟨-, rfl⟩ := get_ok hb
      exact .inl hr
    | beginAttempt operationId now =>
      rcases beginAttempt_ok hb with ⟨-, rfl⟩ | ⟨row, hrow, hbegin, -, hs⟩
      · exact .inl hr
      · exact hkeep hs (fun _ => rfl) hrow fun e => e ▸ .begins now hbegin
    | finishAttempt operationId state orderCode retryNotBefore =>
      obtain ⟨hstate, row, hrow, hd, hs⟩ := finishAttempt_ok hb
      exact hkeep hs (fun _ => rfl) hrow fun e => e ▸ .finishes state orderCode _ hd hstate
    | markInterruptedUnknown operationId =>
      obtain ⟨row, hrow, hd, hs⟩ := markInterruptedUnknown_ok hb
      exact hkeep hs (fun _ => rfl) hrow fun e => e ▸ .interrupted hd
    | reserveAuth operationId timestamp nonce =>
      refine .inl ?_
      show s'.1.write? id = some r
      rw [reserveAuth_ok hb]
      exact hr

/-- **Only `prepare` adds a row**, and returns it. -/
theorem exec_row_origin {op : JournalOp} {r' : PreparedWrite} {id : Str}
    (hr : (op.exec s).2.1.write? id = some r') :
    (∃ r, s.1.write? id = some r) ∨
      ∃ key body, op = .prepare id key body ∧ r' = .new id key body := by
  cases hs : s.1.write? id with
  | some r => exact .inl ⟨r, rfl⟩
  | none =>
    right
    have hset {f : PreparedWrite → PreparedWrite} {s' : Store} {operationId : Str}
        (h : s'.1 = s.1.setWrite operationId f) (hf : ∀ r, (f r).operationId = r.operationId)
        (hr : s'.1.write? id = some r') : False := by
      rw [h] at hr
      by_cases e : id = operationId
      · subst e
        rw [write?_setWrite_self hf, hs] at hr
        cases hr
      · rw [write?_setWrite_other e hf, hs] at hr
        cases hr
    rcases Tx.commit_cases op.body s with ⟨e, he⟩ | ⟨a, s', he, hb⟩
    · rw [JournalOp.exec, he] at hr
      exact absurd (hs.symm.trans hr) nofun
    · rw [JournalOp.exec, he] at hr
      cases op with
      | prepare operationId key body =>
        rcases prepare_ok hb with ⟨rfl, -⟩ | ⟨rfl, -, hs'⟩
        · exact absurd (hs.symm.trans hr) nofun
        · replace hr : s'.1.write? id = some r' := hr
          rw [hs'] at hr
          replace hr : lookup _ (s.1.writes ++ [_]) id = some r' := hr
          rw [lookup_append, show lookup _ s.1.writes id = none from hs, Option.none_or] at hr
          split at hr
          · next e =>
            cases hr
            obtain rfl : operationId = id := e
            exact ⟨key, body, rfl, rfl⟩
          · cases hr
      | get operationId =>
        obtain ⟨-, rfl⟩ := get_ok hb
        exact absurd (hs.symm.trans hr) nofun
      | beginAttempt operationId now =>
        rcases beginAttempt_ok hb with ⟨-, rfl⟩ | ⟨row, -, -, -, hs'⟩
        · exact absurd (hs.symm.trans hr) nofun
        · exact (hset hs' (fun _ => rfl) hr).elim
      | finishAttempt operationId state orderCode retryNotBefore =>
        obtain ⟨-, row, -, -, hs'⟩ := finishAttempt_ok hb
        exact (hset hs' (fun _ => rfl) hr).elim
      | markInterruptedUnknown operationId =>
        obtain ⟨row, -, -, hs'⟩ := markInterruptedUnknown_ok hb
        exact (hset hs' (fun _ => rfl) hr).elim
      | reserveAuth operationId timestamp nonce =>
        replace hr : s'.1.write? id = some r' := hr
        rw [reserveAuth_ok hb] at hr
        exact absurd (hs.symm.trans hr) nofun

/-- **Only `reserve_auth` adds a signature.** -/
theorem exec_auth (op : JournalOp) (s : Store) :
    (op.exec s).2.1.auth = s.1.auth ∨ ∃ id timestamp nonce, op = .reserveAuth id timestamp nonce ∧
      (op.exec s).2.1.auth = s.1.auth ++ [⟨nonce, id, timestamp⟩] := by
  have hset {t : Store} {f : PreparedWrite → PreparedWrite} {id : Str}
      (h : t.1 = s.1.setWrite id f) : t.1.auth = s.1.auth := by
    rw [h]
    rfl
  rcases Tx.commit_cases op.body s with ⟨e, he⟩ | ⟨a, t, he, hb⟩
  · exact .inl (by rw [JournalOp.exec, he])
  · rw [JournalOp.exec, he]
    cases op with
    | prepare operationId key body =>
      rcases prepare_ok hb with ⟨rfl, -⟩ | ⟨-, -, ht⟩
      · exact .inl rfl
      · refine .inl ?_
        show t.1.auth = _
        rw [ht]
    | get operationId =>
      obtain ⟨-, rfl⟩ := get_ok hb
      exact .inl rfl
    | beginAttempt operationId now =>
      rcases beginAttempt_ok hb with ⟨-, rfl⟩ | ⟨row, -, -, -, ht⟩
      · exact .inl rfl
      · exact .inl (hset ht)
    | finishAttempt operationId state orderCode retryNotBefore =>
      obtain ⟨-, row, -, -, ht⟩ := finishAttempt_ok hb
      exact .inl (hset ht)
    | markInterruptedUnknown operationId =>
      obtain ⟨row, -, -, ht⟩ := markInterruptedUnknown_ok hb
      exact .inl (hset ht)
    | reserveAuth operationId timestamp nonce =>
      refine .inr ⟨operationId, timestamp, nonce, rfl, ?_⟩
      show t.1.auth = _
      rw [reserveAuth_ok hb]

end NyanShopBot.VietShare.Offline
