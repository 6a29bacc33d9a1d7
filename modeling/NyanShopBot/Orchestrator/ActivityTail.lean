import NyanShopBot.Py.TextReads
import NyanShopBot.Orchestrator.TokenLedger

/-!
# The activity tail

An agent's log is shown while it is written, by `tailOutput`, and read once more when it is
finished, by `replayLines`; both number the lines and `INSERT OR IGNORE` makes one event of
two equal numbers. The tailer cuts at the line ends of `str.splitlines` and keeps one rest,
so it numbers the same lines where the reads tell the finished text and no separator but a
newline stands before the end (`tail_replay`).
-/

namespace NyanShopBot.Orchestrator

open Py Db

/-! ## The two readers -/

/-- One turn of the tailer's loop: the raw reads of its `stream.read(65_536)`, and whether
`process.poll()` says after it that the agent has ended. -/
structure ReadTurn where
  raws : List Bytes
  ended : Bool

/-- `line.endswith(("\n", "\r"))`. -/
def isTerminated (line : Str) : Bool := line.getLast? == some lf || line.getLast? == some cr

/-- The lines that are enqueued, and the buffer after them. -/
def takeLines (buffer : Str) : List Str → List Str × Str
  | [] => ([], buffer)
  | line :: lines =>
    if isTerminated line then (line :: (takeLines buffer lines).1, (takeLines buffer lines).2)
    else takeLines line lines

/-- `enumerate(lines, start)`. -/
def enumerateFrom (start : Nat) : List Str → List (Nat × Str)
  | [] => []
  | line :: lines => (start, line) :: enumerateFrom (start + 1) lines

/-- The rest of `tail_output`: what it enqueues until the agent has ended, or until
`tail_stop` is set, where the turns end. -/
def tailOutputFrom (stream : TextReader) (buffer : Str) (sequence : Nat) :
    List ReadTurn → List (Nat × Str)
  | [] => []
  | turn :: turns =>
    let chunk := (stream.read 65536 turn.raws).1
    let stream := (stream.read 65536 turn.raws).2
    if chunk ≠ [] then
      let taken := takeLines [] (splitlines (buffer ++ chunk))
      enumerateFrom (sequence + 1) taken.1 ++
        tailOutputFrom stream taken.2 (sequence + taken.1.length) turns
    else if turn.ended then
      if buffer ≠ [] then [(sequence + 1, buffer)] else []
    else tailOutputFrom stream buffer sequence turns

def tailOutput (turns : List ReadTurn) : List (Nat × Str) := tailOutputFrom .new [] 0 turns

/-- The lines of the finished file, as `_replay_invocation_activity` numbers them. -/
def replayLines (data : Bytes) : List (Nat × Str) := enumerateFrom 1 (fileLines (fileText data))

/-! ## Numbers -/

section

variable {lines lines' : List Str} {start : Nat} {p q : Nat × Str}

theorem enumerateFrom_append : enumerateFrom start (lines ++ lines') =
    enumerateFrom start lines ++ enumerateFrom (start + lines.length) lines' := by
  induction lines generalizing start with
  | nil => rfl
  | cons line lines ih =>
    simp only [List.cons_append, enumerateFrom, ih, List.length_cons]
    rw [Nat.add_assoc, Nat.add_comm 1]

theorem enumerateFrom_injective (h : enumerateFrom start lines = enumerateFrom start lines') :
    lines = lines' := by
  induction lines generalizing start lines' with
  | nil =>
    cases lines' with
    | nil => rfl
    | cons line lines' => cases h
  | cons line lines ih =>
    cases lines' with
    | nil => cases h
    | cons line' lines' =>
      obtain ⟨hline, hrest⟩ := List.cons.inj h
      rw [(Prod.mk.inj hline).2, ih hrest]

theorem enumerateFrom_le (h : p ∈ enumerateFrom start lines) : start ≤ p.1 := by
  induction lines generalizing start with
  | nil => cases h
  | cons line lines ih =>
    rcases List.mem_cons.1 h with rfl | h
    · exact Nat.le_refl _
    · exact Nat.le_of_succ_le (ih h)

/-- A number stands for one line. -/
theorem enumerateFrom_unique (hp : p ∈ enumerateFrom start lines)
    (hq : q ∈ enumerateFrom start lines) (h : p.1 = q.1) : p = q := by
  induction lines generalizing start with
  | nil => cases hp
  | cons line lines ih =>
    rcases List.mem_cons.1 hp with rfl | hp <;> rcases List.mem_cons.1 hq with rfl | hq
    · rfl
    · have := enumerateFrom_le hq
      omega
    · have := enumerateFrom_le hp
      omega
    · exact ih hp hq

end

/-! ## What the reads tell -/

/-- What the turns have read, ends of the file included. -/
def eventsOf (turns : List ReadTurn) : List (Option UInt8) :=
  turns.flatMap fun turn => turn.raws.flatMap rawEvents

/-- The chunks that are not empty, and whether an empty one found that the agent had ended. -/
def received (stream : TextReader) : List ReadTurn → List Str × Bool
  | [] => ([], false)
  | turn :: turns =>
    let chunk := (stream.read 65536 turn.raws).1
    let stream := (stream.read 65536 turn.raws).2
    if chunk ≠ [] then (chunk :: (received stream turns).1, (received stream turns).2)
    else if turn.ended then ([], true)
    else received stream turns

/-- The lines that chunks make. -/
def tailLines (buffer : Str) (ended : Bool) : List Str → List Str
  | [] => if ended then lastLine buffer else []
  | chunk :: chunks =>
    (takeLines [] (splitlines (buffer ++ chunk))).1 ++
      tailLines (takeLines [] (splitlines (buffer ++ chunk))).2 ended chunks

/-- The text that the reads tell: a rest that no newline ends only if the agent had ended. -/
def toldText (chunks : List Str) (ended : Bool) : Str :=
  if ended then chunks.flatten else (cutLines [] chunks.flatten).1.flatten

def told (turns : List ReadTurn) : Str := toldText (received .new turns).1 (received .new turns).2

/-- Of the line ends, only newlines stand before the last character. -/
def SeparatorsLast (text : Str) : Prop := ∀ x ∈ text.dropLast, isSeparator x = false

instance (text : Str) : Decidable (SeparatorsLast text) :=
  List.decidableBAll _ _

theorem tailOutputFrom_eq {turns : List ReadTurn} {stream : TextReader} {buffer : Str}
    {sequence : Nat} : tailOutputFrom stream buffer sequence turns =
      enumerateFrom (sequence + 1)
        (tailLines buffer (received stream turns).2 (received stream turns).1) := by
  induction turns generalizing stream buffer sequence with
  | nil => rfl
  | cons turn turns ih =>
    simp only [tailOutputFrom, received]
    split
    · rw [ih, tailLines, enumerateFrom_append, Nat.add_right_comm]
    split
    · by_cases hbuffer : buffer = [] <;> simp [tailLines, lastLine, hbuffer, enumerateFrom]
    · exact ih

section

variable {turns : List ReadTurn} {stream : TextReader}

/-- The chunks and the text that is decoded and not read yet make up what the bytes give. -/
theorem received_text : ∃ rest, stream.decoded ++ stream.decoder.text (eventsOf turns) =
    (received stream turns).1.flatten ++ rest ∧
    ((∀ turn ∈ turns.dropLast, turn.ended = false) → (received stream turns).2 = true →
      rest = []) := by
  induction turns generalizing stream with
  | nil => exact ⟨_, rfl, by simp [received]⟩
  | cons turn turns ih =>
    obtain ⟨rest, htext, hall⟩ := @ih (stream.read 65536 turn.raws).2
    have hturn : stream.decoded ++ stream.decoder.text (eventsOf (turn :: turns)) =
        (stream.read 65536 turn.raws).1 ++ ((stream.read 65536 turn.raws).2.decoded ++
          (stream.read 65536 turn.raws).2.decoder.text (eventsOf turns)) := by
      unfold eventsOf TextReader.read
      rw [foldl_fill, List.flatMap_cons, text_append]
      simp only [← List.append_assoc, List.take_append_drop]
    simp only [received]
    split
    · next hchunk =>
      refine ⟨rest, by rw [hturn, htext, List.flatten_cons, List.append_assoc],
        fun hlast => hall ?_⟩
      exact fun turn' h => hlast turn' (mem_dropLast_append (l := [turn]) h)
    · next hchunk =>
      have hchunk : (stream.read 65536 turn.raws).1 = [] := not_not.1 hchunk
      split
      · next hended =>
        refine ⟨stream.decoded ++ stream.decoder.text (eventsOf (turn :: turns)), rfl,
          fun hlast _ => ?_⟩
        have hturns : turns = [] := by
          cases turns with
          | nil => rfl
          | cons _ _ => exact absurd (hlast turn List.mem_cons_self) (by simp [hended])
        rw [hturn, hchunk, hturns]
        have hdecoded : (turn.raws.foldl TextReader.fill stream).decoded = [] := by
          simpa [TextReader.read] using hchunk
        simp [eventsOf, Decoder.text, TextReader.read, hdecoded]
      · refine ⟨rest, by rw [hturn, hchunk, htext]; rfl, fun hlast => hall ?_⟩
        exact fun turn' h => hlast turn' (mem_dropLast_append (l := [turn]) h)

theorem cr_not_mem_received : cr ∉ (received .new turns).1.flatten := by
  obtain ⟨rest, htext, -⟩ := @received_text turns .new
  have htext : Decoder.new.text (eventsOf turns) = _ ++ rest := htext
  intro h
  refine @cr_not_mem_text .new (eventsOf turns) ?_
  rw [htext]
  exact List.mem_append_left rest h

end

/-! ## Lines of chunks -/

section

variable {buffer chunk line s : Str} {chunks : List Str} {ended : Bool}

theorem isTerminated_concat {c : CodePoint} :
    isTerminated (line ++ [c]) = (c == lf || c == cr) := by
  simp [isTerminated]

/-- A text with no separator before its end is cut as a file is. -/
theorem takeLines_splitlines (hcr : cr ∉ line ++ s) (hlf : lf ∉ line)
    (hsep : SeparatorsLast (line ++ s)) :
    takeLines [] (splitlinesFrom line s) = cutLines line s := by
  induction s generalizing line with
  | nil =>
    unfold splitlinesFrom lastLine
    split
    · next h => rw [h]; rfl
    · have hterm : isTerminated line = false := by
        unfold isTerminated
        simp only [Bool.or_eq_false_iff, beq_eq_false_iff_ne]
        refine ⟨fun h => hlf ?_, fun h => hcr ?_⟩
        · exact List.mem_of_getLast? h
        · rw [List.append_nil]
          exact List.mem_of_getLast? h
      simp [takeLines, hterm, cutLines]
  | cons c s ih =>
    have hne : c ≠ cr := fun h => hcr (by simp [h])
    have hlater : endsLater c s = false := by simp [endsLater, hne]
    unfold splitlinesFrom cutLines
    rw [hlater]
    by_cases hc : c = lf
    · have hrest : takeLines [] (splitlinesFrom [] s) = cutLines [] s := by
        refine ih (fun h => hcr ?_) List.not_mem_nil fun x hx => hsep x ?_
        · exact List.mem_append_right _ (List.mem_cons_of_mem _ h)
        · exact mem_dropLast_append (mem_dropLast_append (l := [c]) hx)
      subst hc
      have hend : isLineEnd lf = true := by decide
      simp only [hend, Bool.not_false, Bool.and_self, if_true]
      rw [takeLines, isTerminated_concat]
      simp [hrest]
    · rw [if_neg hc, isLineEnd_of hc hne, Bool.not_false, Bool.and_true]
      have hnext : takeLines [] (splitlinesFrom (line ++ [c]) s) = cutLines (line ++ [c]) s := by
        refine ih (by simpa using hcr) (fun h => ?_) (by simpa using hsep)
        rcases List.mem_append.1 h with h | h
        · exact hlf h
        · exact hc (List.mem_singleton.1 h).symm
      split
      · next hx =>
        -- a separator is the last character, so the line is what is left
        have hs : s = [] := by
          cases s with
          | nil => rfl
          | cons e s =>
            have hin : c ∈ (line ++ c :: e :: s).dropLast := by
              rw [List.dropLast_append_of_ne_nil (List.cons_ne_nil _ _)]
              simp
            exact absurd hx (by simp [hsep c hin])
        rw [hs] at hnext ⊢
        have hterm : isTerminated (line ++ [c]) = false := by simp [isTerminated_concat, hc, hne]
        simp [splitlinesFrom, lastLine, takeLines, hterm, cutLines]
      · exact hnext

/-- **Chunks with no separator before the end make the lines of their text.** -/
theorem tailLines_eq (hcr : cr ∉ buffer ++ chunks.flatten) (hlf : lf ∉ buffer)
    (hsep : SeparatorsLast (buffer ++ chunks.flatten)) :
    tailLines buffer ended chunks = (cutLines buffer chunks.flatten).1 ++
      if ended then lastLine (cutLines buffer chunks.flatten).2 else [] := by
  induction chunks generalizing buffer with
  | nil => rfl
  | cons chunk chunks ih =>
    rw [List.flatten_cons, ← List.append_assoc] at hcr hsep
    have htake : takeLines [] (splitlines (buffer ++ chunk)) = cutLines buffer chunk := by
      have htake := @takeLines_splitlines [] (buffer ++ chunk)
        (fun h => hcr (List.mem_append_left _ h)) List.not_mem_nil
        fun x hx => hsep x (mem_dropLast_left hx)
      rw [cutLines_rest hlf] at htake
      exact htake
    -- what is left is the end of what the chunk has completed
    have hsplit : buffer ++ chunk ++ chunks.flatten =
        (cutLines buffer chunk).1.flatten ++ ((cutLines buffer chunk).2 ++ chunks.flatten) := by
      rw [← List.append_assoc, flatten_cutLines]
    rw [hsplit] at hcr hsep
    have hrest := @ih (cutLines buffer chunk).2 (fun h => hcr (List.mem_append_right _ h))
      (fun h => (mem_rest h).elim hlf fun h => h.2 rfl)
      fun x hx => hsep x (mem_dropLast_append hx)
    simp only [tailLines]
    rw [htake, hrest, List.flatten_cons, cutLines_append, List.append_assoc]

/-- A line with no line end before its last character. -/
def InnerClean (line : Str) : Prop := ∀ x ∈ line.dropLast, isLineEnd x = false

theorem takeLines_clean {lines : List Str} (hlines : ∀ l ∈ lines, InnerClean l)
    (hbuffer : InnerClean buffer) : (∀ l ∈ (takeLines buffer lines).1, InnerClean l) ∧
      InnerClean (takeLines buffer lines).2 := by
  induction lines generalizing buffer with
  | nil => exact ⟨fun l h => absurd h List.not_mem_nil, hbuffer⟩
  | cons line lines ih =>
    have hline := hlines line List.mem_cons_self
    have hlines := fun l h => hlines l (List.mem_cons_of_mem _ h)
    unfold takeLines
    split
    · obtain ⟨hout, hrest⟩ := ih hlines hbuffer
      exact ⟨fun l h => (List.mem_cons.1 h).elim (fun h => h ▸ hline) (hout l), hrest⟩
    · exact ih hlines hline

theorem mem_takeLines {lines : List Str} {x : CodePoint} (h : x ∈ (takeLines buffer lines).2) :
    x ∈ buffer ∨ ∃ l ∈ lines, x ∈ l := by
  induction lines generalizing buffer with
  | nil => exact .inl h
  | cons line lines ih =>
    unfold takeLines at h
    split at h
    · exact (ih h).imp_right fun ⟨l, hl, hx⟩ => ⟨l, List.mem_cons_of_mem _ hl, hx⟩
    · rcases ih h with hx | ⟨l, hl, hx⟩
      · exact .inr ⟨line, List.mem_cons_self, hx⟩
      · exact .inr ⟨l, List.mem_cons_of_mem _ hl, hx⟩

/-- **The tailer's lines have no line end before their last character.** -/
theorem tailLines_clean (hcr : cr ∉ buffer ++ chunks.flatten) (hbuffer : InnerClean buffer) :
    ∀ l ∈ tailLines buffer ended chunks, InnerClean l := by
  induction chunks generalizing buffer with
  | nil =>
    intro l h
    unfold tailLines lastLine at h
    split at h
    · split at h
      · cases h
      · exact List.mem_singleton.1 h ▸ hbuffer
    · cases h
  | cons chunk chunks ih =>
    rw [List.flatten_cons, ← List.append_assoc] at hcr
    have hpieces : ∀ l ∈ splitlines (buffer ++ chunk), InnerClean l := fun l =>
      mem_splitlinesFrom (fun h => hcr (List.mem_append_left _ h)) fun c h => by cases h
    have hempty : InnerClean [] := fun c h => by cases h
    obtain ⟨hout, hrest⟩ := takeLines_clean hpieces hempty
    intro l h
    rcases List.mem_append.1 h with h | h
    · exact hout l h
    · refine ih (fun h => hcr ?_) hrest l h
      rcases List.mem_append.1 h with h | h
      · obtain ⟨l, hl, hx⟩ := (mem_takeLines h).resolve_left List.not_mem_nil
        have hin : cr ∈ (splitlines (buffer ++ chunk)).flatten := List.mem_flatten.2 ⟨l, hl, hx⟩
        rw [splitlines, flatten_splitlinesFrom] at hin
        exact List.mem_append_left _ hin
      · exact List.mem_append_right _ h

end

/-! ## The two readers agree -/

theorem SeparatorsLast.of_clean {text : Str} (h : ∀ l ∈ fileLines text, InnerClean l) :
    SeparatorsLast text := by
  intro x hx
  by_contra hsep
  rw [Bool.not_eq_false] at hsep
  obtain ⟨l, hl, hin⟩ := @exists_line [] text x (separator_ne hsep).1 hx
  have hend := h l hl x hin
  rw [isLineEnd_of (separator_ne hsep).1 (separator_ne hsep).2.1, hsep] at hend
  cases hend

section

variable {data : Bytes} {turns : List ReadTurn} {s : Str}

/-- The separators that the reads tell are in the finished file. -/
theorem SeparatorsLast.received (hdata : Expects none data)
    (hreads : bytesOf (eventsOf turns) <+: data)
    (h : SeparatorsLast (fileText data)) :
    SeparatorsLast (received .new turns).1.flatten := by
  obtain ⟨rest, htext, -⟩ := @received_text turns .new
  have htext : Decoder.new.text (eventsOf turns) = _ ++ rest := htext
  intro x hx
  by_contra hsep
  rw [Bool.not_eq_false] at hsep
  have hin : x ∈ (Decoder.new.text (eventsOf turns)).dropLast := by
    rw [htext]
    exact mem_dropLast_left hx
  have hfile : x ∈ (fileText data).dropLast :=
    @separators_of_read x hsep (eventsOf turns) .new .new data hdata (.inl rfl) hreads hin
  rw [h x hfile] at hsep
  cases hsep

/-- The lines that the tailer makes, where the separators stand last. -/
theorem tailLines_received (h : SeparatorsLast (received .new turns).1.flatten) :
    tailLines [] (received .new turns).2 (received .new turns).1 = fileLines (told turns) ∧
      told turns = (tailLines [] (received .new turns).2 (received .new turns).1).flatten := by
  have hlines := @tailLines_eq [] (received .new turns).1 (received .new turns).2
    cr_not_mem_received List.not_mem_nil h
  rw [hlines]
  unfold told toldText
  cases (received .new turns).2 with
  | true => exact ⟨rfl, (flatten_fileLines _).symm⟩
  | false =>
    simp only [Bool.false_eq_true, if_false, List.append_nil, and_true]
    exact (fileLines_flatten fun l hl => mem_cutLines List.not_mem_nil hl).symm

theorem tailOutput_iff (hdata : Expects none data) (hreads : bytesOf (eventsOf turns) <+: data) :
    tailOutput turns = replayLines data ↔
      told turns = fileText data ∧ SeparatorsLast (fileText data) := by
  unfold tailOutput replayLines
  rw [tailOutputFrom_eq]
  constructor
  · intro h
    have hlines := enumerateFrom_injective h
    have hlast : SeparatorsLast (fileText data) := by
      refine .of_clean fun l hl => ?_
      rw [← hlines] at hl
      exact tailLines_clean cr_not_mem_received (fun c h => by cases h) l hl
    refine ⟨?_, hlast⟩
    rw [(tailLines_received (hlast.received hdata hreads)).2, hlines, flatten_fileLines]
  · rintro ⟨htold, hlast⟩
    rw [(tailLines_received (hlast.received hdata hreads)).1, htold]

/-- The agent has ended when the tailer's last read finds nothing more of its log. -/
structure Finished (turns : List ReadTurn) (data : Bytes) : Prop where
  running : ∀ turn ∈ turns.dropLast, turn.ended = false
  ended : (received .new turns).2 = true
  whole : bytesOf (eventsOf turns) = data
  atEnd : (eventsOf turns).getLast? = some none

/-- Such a tailer tells the finished file where no read has met the end of the file inside a
character or a newline. -/
theorem Finished.told_iff (hdata : Expects none data) (h : Finished turns data) :
    told turns = fileText data ↔ cleanReads false data (eventsOf turns) = true := by
  obtain ⟨rest, htext, hall⟩ := @received_text turns .new
  have htext : Decoder.new.text (eventsOf turns) = _ ++ rest := htext
  have hwhole := h.whole
  rw [hall h.running h.ended, List.append_nil] at htext
  have hevents := List.dropLast_append_getLast? _ h.atEnd
  have htold : told turns = Decoder.new.text (eventsOf turns) := by
    rw [htext]
    unfold told toldText
    rw [if_pos h.ended]
  rw [← hevents] at hwhole htold ⊢
  have hbytes : bytesOf (eventsOf turns).dropLast = data := by
    simpa [bytesOf] using hwhole
  rw [htold, cleanReads_end hbytes]
  exact reads_text_iff hdata hbytes

end

/-! ## The events -/

/-- A stream of an invocation, and what `_record_activity_line` takes from a line of it. -/
structure ActivityStream where
  runId : Str
  role : Role
  invocation : Str
  channel : Str
  payload : Nat × Str → Option (Json × Option (Role × Str))

namespace ActivityStream

def sourceKey (a : ActivityStream) (sequence : Nat) : Str :=
  a.role.value ++ str ":" ++ a.invocation ++ str ":" ++ a.channel ++ str ":" ++ natStr sequence

def row (a : ActivityStream) (line : Nat × Str) (payload : Json) : EventRow :=
  ⟨a.runId, str "agent.activity", payload, some (a.sourceKey line.1)⟩

/-- `_record_activity_line` for one line after another; what raises ends it. -/
def recordAll (a : ActivityStream) (s : Store) : List (Nat × Str) → Except StoreError Store
  | [] => .ok s
  | line :: lines =>
    match a.payload line with
    | none => a.recordAll s lines
    | some (payload, session) =>
      match (appendActivityEvent a.runId payload (a.sourceKey line.1) session).commit s with
      | (.ok _, s') => a.recordAll s' lines
      | (.error e, _) => .error e

section

variable {a : ActivityStream} {s s' : Store} {lines : List (Nat × Str)}

theorem sourceKey_injective {m n : Nat} (h : a.sourceKey m = a.sourceKey n) : m = n :=
  natStr_injective (List.append_cancel_left h)

/-- What the events of the stream are once lines of it are recorded. -/
theorem mem_events {e : EventRow} (hlines : ∀ p ∈ lines, ∀ q ∈ lines, p.1 = q.1 → p = q)
    (h : a.recordAll s lines = .ok s') : e ∈ s'.1.events ↔ e ∈ s.1.events ∨
      ∃ line ∈ lines, ∃ payload session, a.payload line = some (payload, session) ∧
        (a.runId, a.sourceKey line.1) ∉ s.1.sources ∧ e = a.row line payload := by
  induction lines generalizing s with
  | nil =>
    cases h
    simp
  | cons line lines ih =>
    have hrest :=
      fun p hp q hq => hlines p (List.mem_cons_of_mem _ hp) q (List.mem_cons_of_mem _ hq)
    unfold recordAll at h
    cases hpayload : a.payload line with
    | none =>
      rw [hpayload] at h
      rw [ih hrest h]
      simp [hpayload]
    | some x =>
      obtain ⟨payload, session⟩ := x
      rw [hpayload] at h
      simp only at h
      rcases Tx.commit_cases
        (appendActivityEvent a.runId payload (a.sourceKey line.1) session) s with
        ⟨e', hexec⟩ | ⟨new, s₁, hexec, hok⟩ <;> rw [hexec] at h
      · cases h
      rw [ih hrest h]
      obtain ⟨t, hpin, hinsert⟩ := appendActivityEvent_ok hok
      have hevents := hpin.events
      have hsources : t.sources = s.1.sources := by unfold Tables.sources; rw [hevents]
      rcases hinsert with ⟨hold, hs₁⟩ | ⟨hnew, hs₁⟩
      · -- the line is an event already
        rw [hsources] at hold
        rw [hs₁, hevents, hsources]
        refine or_congr_right ⟨?_, ?_⟩
        · rintro ⟨q, hq, rest⟩
          exact ⟨q, List.mem_cons_of_mem _ hq, rest⟩
        · rintro ⟨q, hq, payload', session', hq', hfresh, rfl⟩
          rcases List.mem_cons.1 hq with rfl | hq
          · exact absurd hold hfresh
          · exact ⟨q, hq, payload', session', hq', hfresh, rfl⟩
      · -- the line becomes one, and no line after it does so under its number
        have hs₁events : s₁.1.events = s.1.events ++ [a.row line payload] := by
          rw [hs₁, ← hevents]
          rfl
        have hs₁sources : s₁.1.sources = s.1.sources ++ [(a.runId, a.sourceKey line.1)] := by
          unfold Tables.sources
          rw [hs₁events, List.filterMap_append]
          rfl
        rw [hsources] at hnew
        rw [hs₁events, hs₁sources]
        constructor
        · rintro (he | ⟨q, hq, payload', session', hq', hfresh, rfl⟩)
          · rcases List.mem_append.1 he with he | he
            · exact .inl he
            · exact .inr ⟨line, List.mem_cons_self, payload, session, hpayload, hnew,
                List.mem_singleton.1 he⟩
          · exact .inr ⟨q, List.mem_cons_of_mem _ hq, payload', session', hq',
              fun h => hfresh (List.mem_append_left _ h), rfl⟩
        · rintro (he | ⟨q, hq, payload', session', hq', hfresh, rfl⟩)
          · exact .inl (List.mem_append_left _ he)
          by_cases hkey : q.1 = line.1
          · obtain rfl := hlines q hq line List.mem_cons_self hkey
            obtain ⟨rfl, rfl⟩ := Prod.mk.inj (Option.some.inj (hq'.symm.trans hpayload))
            exact .inl (List.mem_append_right _ List.mem_cons_self)
          · have hq := (List.mem_cons.1 hq).resolve_left fun h => hkey (h ▸ rfl)
            refine .inr ⟨q, hq, payload', session', hq', fun h => ?_, rfl⟩
            rcases List.mem_append.1 h with h | h
            · exact hfresh h
            · exact hkey (sourceKey_injective (Prod.mk.inj (List.mem_singleton.1 h)).2)

/-- Lines that are recorded twice are the events that they are once. -/
theorem recorded_same {live : List (Nat × Str)} {s₁ s₂ : Store}
    (hlines : ∀ p ∈ lines, ∀ q ∈ lines, p.1 = q.1 → p = q) (hlive : live ⊆ lines)
    (h₁ : a.recordAll s (live ++ lines) = .ok s₁) (h₂ : a.recordAll s lines = .ok s₂)
    (e : EventRow) : e ∈ s₁.1.events ↔ e ∈ s₂.1.events := by
  have hall : ∀ p, p ∈ live ++ lines ↔ p ∈ lines := fun p =>
    ⟨fun h => (List.mem_append.1 h).elim (hlive ·) id, List.mem_append_right live⟩
  have hboth : ∀ p ∈ live ++ lines, ∀ q ∈ live ++ lines, p.1 = q.1 → p = q := fun p hp q hq =>
    hlines p ((hall p).1 hp) q ((hall q).1 hq)
  rw [mem_events hboth h₁, mem_events hlines h₂]
  simp only [hall]

end

end ActivityStream

/-- **The tailer and the replay**: for every log of encoded text and every way the tailer
reads some beginning of it, both number the same lines iff the reads tell the text of the
finished file and no separator but a newline stands before its end; a tailer that reads it
all tells that text iff no read meets the end of the file inside a character or between
`\r` and `\n`. Where the lines are the same, the events are the same, whichever of them were
delivered live. -/
theorem tail_replay {text : Str} {data : Bytes} {turns : List ReadTurn}
    (hdata : encodeUtf8 text = some data) (hreads : bytesOf (eventsOf turns) <+: data) :
    (tailOutput turns = replayLines data ↔
      told turns = fileText data ∧ SeparatorsLast (fileText data)) ∧
    (Finished turns data → (tailOutput turns = replayLines data ↔
      cleanReads false data (eventsOf turns) = true ∧ SeparatorsLast (fileText data))) ∧
    (tailOutput turns = replayLines data → ∀ (a : ActivityStream) (s s₁ s₂ : Store)
      (live : List (Nat × Str)), live.Sublist (tailOutput turns) →
      a.recordAll s (live ++ replayLines data) = .ok s₁ →
      a.recordAll s (replayLines data) = .ok s₂ → ∀ e, e ∈ s₁.1.events ↔ e ∈ s₂.1.events) := by
  have hutf8 := expects_encodeUtf8 hdata
  have hiff := tailOutput_iff hutf8 hreads
  refine ⟨hiff, fun hfin => by rw [hiff, hfin.told_iff hutf8], ?_⟩
  intro hsame a s s₁ s₂ live hlive h₁ h₂ e
  rw [hsame] at hlive
  exact a.recorded_same (fun p hp q hq => enumerateFrom_unique hp hq) hlive.subset h₁ h₂ e

/-! ## Logs -/

/-- A log that is read in two parts, the agent still running. -/
def sampleTurns : List ReadTurn :=
  [⟨[[0x61, 0x0a], []], false⟩, ⟨[[0x62, 0x0a], []], false⟩, ⟨[[]], true⟩]

def sampleLog : Bytes := [0x61, 0x0a, 0x62, 0x0a]

def sampleStream : ActivityStream where
  runId := str "run"
  role := .worker
  invocation := str "worker-0"
  channel := str "stdout"
  payload := fun line => some (.str line.2, none)

def sampleStore : Store := runOps Store.empty
  [.createRun (str "run") sampleTask (str "t.json") (str "base") (str "w") 1]

/-- Only the second line was delivered live. -/
def sampleLive : List (Nat × Str) := [(2, str "b\n")]

theorem tail_replay_sample :
    tailOutput sampleTurns = replayLines sampleLog ∧
    replayLines sampleLog = [(1, str "a\n"), (2, str "b\n")] ∧
    (sampleStream.recordAll sampleStore (sampleLive ++ replayLines sampleLog)).isOk = true ∧
    ∀ s₁ s₂, sampleStream.recordAll sampleStore (sampleLive ++ replayLines sampleLog) = .ok s₁ →
      sampleStream.recordAll sampleStore (replayLines sampleLog) = .ok s₂ →
      ∀ e, e ∈ s₁.1.events ↔ e ∈ s₂.1.events := by
  have hfinished : Finished sampleTurns sampleLog :=
    ⟨by decide, by decide +kernel, by decide, by decide⟩
  have hall := @tail_replay (str "a\nb\n") sampleLog sampleTurns (by decide +kernel)
    (by decide +kernel)
  have hsame := (hall.2.1 hfinished).2 ⟨by decide, by decide +kernel⟩
  refine ⟨hsame, by decide +kernel, by decide +kernel, fun s₁ s₂ => ?_⟩
  refine hall.2.2 hsame sampleStream sampleStore s₁ s₂ sampleLive ?_
  rw [hsame]
  decide +kernel

/-- A separator that the tailer takes for a line end: what follows it is numbered as the
first line, and what stands before it as the second one. -/
theorem separator_torn :
    encodeUtf8 [chr 'a', codePoint 0x2028, chr 'b', lf] =
      some [0x61, 0xe2, 0x80, 0xa8, 0x62, 0x0a] ∧
    tailOutput [⟨[[0x61, 0xe2, 0x80, 0xa8, 0x62, 0x0a], []], false⟩, ⟨[[]], true⟩] =
      [(1, [chr 'b', lf]), (2, [chr 'a', codePoint 0x2028])] ∧
    replayLines [0x61, 0xe2, 0x80, 0xa8, 0x62, 0x0a] =
      [(1, [chr 'a', codePoint 0x2028, chr 'b', lf])] := by
  refine ⟨?_, ?_, ?_⟩ <;> decide +kernel

/-- A read that meets the end of the file inside a character. -/
example : encodeUtf8 (str "é\n") = some [0xc3, 0xa9, 0x0a] ∧
    tailOutput [⟨[[0xc3], [], []], false⟩, ⟨[[0xa9, 0x0a], []], false⟩, ⟨[[]], true⟩] =
      [(1, [replacement, replacement, lf])] ∧
    replayLines [0xc3, 0xa9, 0x0a] = [(1, str "é\n")] := by
  refine ⟨?_, ?_, ?_⟩ <;> decide +kernel

end NyanShopBot.Orchestrator
