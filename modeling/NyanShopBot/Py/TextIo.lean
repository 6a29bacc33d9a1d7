import NyanShopBot.Py.Basic

/-!
# Text files

`TextReader` is a file opened for reading as UTF-8 text with `errors="replace"` and
universal newlines, that another process may still be writing: a raw read that finds no
more bytes finishes the decoder, and a later one goes on. `fileText` is the text of a
finished file, `fileLines` its lines and `splitlines` the lines of a `str`, which ends them
at more characters.
-/

namespace Py

/-! ## UTF-8 -/

/-- The replacement character. -/
def replacement : CodePoint := 0xfffd

/-- A character of which `need` bytes are missing, the next one between `low` and `high`. -/
structure Pending where
  need : Nat
  low : Nat
  high : Nat
  value : Nat
deriving DecidableEq

/-- What the first byte of a character announces. -/
def leadByte (n : Nat) : Option Pending :=
  if 0xc2 ≤ n ∧ n ≤ 0xdf then some ⟨1, 0x80, 0xbf, n - 0xc0⟩
  else if n = 0xe0 then some ⟨2, 0xa0, 0xbf, 0⟩
  else if n = 0xed then some ⟨2, 0x80, 0x9f, 13⟩
  else if 0xe1 ≤ n ∧ n ≤ 0xef then some ⟨2, 0x80, 0xbf, n - 0xe0⟩
  else if n = 0xf0 then some ⟨3, 0x90, 0xbf, 0⟩
  else if 0xf1 ≤ n ∧ n ≤ 0xf3 then some ⟨3, 0x80, 0xbf, n - 0xf0⟩
  else if n = 0xf4 then some ⟨3, 0x80, 0x8f, 4⟩
  else none

def codePoint (n : Nat) : CodePoint := if h : n < 0x110000 then ⟨n, h⟩ else replacement

/-- A byte at the start of a character. -/
def startByte (b : UInt8) : Option Pending × Str :=
  if b.toNat < 0x80 then (none, [codePoint b.toNat])
  else match leadByte b.toNat with
    | some p => (some p, [])
    | none => (none, [replacement])

/-- One byte: a byte that does not continue the character ends it as one replacement. -/
def feedByte : Option Pending → UInt8 → Option Pending × Str
  | none, b => startByte b
  | some p, b =>
    if p.low ≤ b.toNat ∧ b.toNat ≤ p.high then
      let value := p.value * 64 + b.toNat % 64
      if p.need ≤ 1 then (none, [codePoint value])
      else (some ⟨p.need - 1, 0x80, 0xbf, value⟩, [])
    else ((startByte b).1, replacement :: (startByte b).2)

/-! ## Universal newlines -/

def lf : CodePoint := chr '\n'

def cr : CodePoint := chr '\r'

/-- A carriage return that is held back, as the newline it stands for. -/
def heldNewline (held : Bool) : Str := if held then [lf] else []

/-- One character: what follows a held carriage return says what it stands for. -/
def translate (held : Bool) (c : CodePoint) : Bool × Str :=
  if c = lf then (false, [lf])
  else if c = cr then (true, heldNewline held)
  else (false, heldNewline held ++ [c])

def translateAll (held : Bool) : Str → Bool × Str
  | [] => (held, [])
  | c :: s => ((translateAll (translate held c).1 s).1,
      (translate held c).2 ++ (translateAll (translate held c).1 s).2)

/-! ## The reader -/

structure Decoder where
  pending : Option Pending
  held : Bool

namespace Decoder

def new : Decoder := ⟨none, false⟩

def byte (d : Decoder) (b : UInt8) : Decoder × Str :=
  (⟨(feedByte d.pending b).1, (translateAll d.held (feedByte d.pending b).2).1⟩,
    (translateAll d.held (feedByte d.pending b).2).2)

/-- The characters that an unfinished one is replaced by. -/
def unfinished (d : Decoder) : Str := if d.pending.isSome then [replacement] else []

/-- `decode(b"", final=True)`. -/
def finish (d : Decoder) : Str :=
  (translateAll d.held d.unfinished).2 ++ heldNewline (translateAll d.held d.unfinished).1

/-- The text of bytes and of ends of the file that reads have met, `none`. -/
def text (d : Decoder) : List (Option UInt8) → Str
  | [] => []
  | some b :: events => (d.byte b).2 ++ text (d.byte b).1 events
  | none :: events => d.finish ++ text new events

/-- The decoder after them. -/
def after (d : Decoder) : List (Option UInt8) → Decoder
  | [] => d
  | some b :: events => after (d.byte b).1 events
  | none :: events => after new events

end Decoder

/-- A raw read: bytes, or the end of the file. -/
def rawEvents (raw : Bytes) : List (Option UInt8) := if raw = [] then [none] else raw.map some

structure TextReader where
  decoder : Decoder
  /-- The characters that are decoded and not yet read. -/
  decoded : Str

namespace TextReader

def new : TextReader := ⟨.new, []⟩

def fill (stream : TextReader) (raw : Bytes) : TextReader :=
  ⟨stream.decoder.after (rawEvents raw), stream.decoded ++ stream.decoder.text (rawEvents raw)⟩

/-- `stream.read(size)`, with the raw reads that it makes. -/
def read (stream : TextReader) (size : Nat) (raws : List Bytes) : Str × TextReader :=
  let filled := raws.foldl fill stream
  (filled.decoded.take size, { filled with decoded := filled.decoded.drop size })

end TextReader

/-- The text of a finished file. -/
def fileText (data : Bytes) : Str := Decoder.new.text (data.map some ++ [none])

/-! ## Lines -/

/-- The lines that end, with their newlines, and the rest. -/
def cutLines (line : Str) : Str → List Str × Str
  | [] => ([], line)
  | c :: s =>
    if c = lf then ((line ++ [c]) :: (cutLines [] s).1, (cutLines [] s).2)
    else cutLines (line ++ [c]) s

def lastLine (rest : Str) : List Str := if rest = [] then [] else [rest]

/-- The lines of an open file, as an iteration gives them. -/
def fileLines (text : Str) : List Str := (cutLines [] text).1 ++ lastLine (cutLines [] text).2

/-- What ends a line for `str.splitlines`, `\n` and `\r` apart. -/
def isSeparator (c : CodePoint) : Bool :=
  c.val == 0x0b || c.val == 0x0c || (0x1c ≤ c.val && c.val ≤ 0x1e) || c.val == 0x85 ||
    c.val == 0x2028 || c.val == 0x2029

def isLineEnd (c : CodePoint) : Bool := c == lf || c == cr || isSeparator c

/-- The text goes on with the second half of `\r\n`. -/
def endsLater (c : CodePoint) (s : Str) : Bool := c == cr && s.head? == some lf

/-- `splitlines(keepends=True)` after `line`. -/
def splitlinesFrom (line : Str) : Str → List Str
  | [] => lastLine line
  | c :: s =>
    if isLineEnd c && !endsLater c s then (line ++ [c]) :: splitlinesFrom [] s
    else splitlinesFrom (line ++ [c]) s

def splitlines (s : Str) : List Str := splitlinesFrom [] s

section

variable {line rest s t : Str} {x : CodePoint}

theorem cutLines_append (line s t : Str) : cutLines line (s ++ t) =
    ((cutLines line s).1 ++ (cutLines (cutLines line s).2 t).1,
      (cutLines (cutLines line s).2 t).2) := by
  induction s generalizing line with
  | nil => rfl
  | cons c s ih =>
    simp only [List.cons_append, cutLines]
    split
    · simp [ih]
    · exact ih _

theorem flatten_cutLines (line s : Str) :
    (cutLines line s).1.flatten ++ (cutLines line s).2 = line ++ s := by
  induction s generalizing line with
  | nil => simp [cutLines]
  | cons c s ih =>
    simp only [cutLines]
    split
    · simp [ih]
    · rw [ih]
      simp

theorem flatten_lastLine (rest : Str) : (lastLine rest).flatten = rest := by
  unfold lastLine
  split
  · next h => simp [h]
  · simp

/-- The lines of a text make it up. -/
theorem flatten_fileLines (text : Str) : (fileLines text).flatten = text := by
  unfold fileLines
  rw [List.flatten_append, flatten_lastLine, flatten_cutLines]
  rfl

/-- The rest of a line is what follows the last newline. -/
theorem mem_rest (h : x ∈ (cutLines line s).2) : x ∈ line ∨ x ∈ s ∧ x ≠ lf := by
  induction s generalizing line with
  | nil => exact .inl h
  | cons c s ih =>
    unfold cutLines at h
    split at h
    · rcases ih h with h | ⟨h, hne⟩
      · cases h
      · exact .inr ⟨List.mem_cons_of_mem _ h, hne⟩
    · next hc =>
      rcases ih h with h | ⟨h, hne⟩
      · rcases List.mem_append.1 h with h | h
        · exact .inl h
        · obtain rfl := List.mem_singleton.1 h
          exact .inr ⟨List.mem_cons_self, hc⟩
      · exact .inr ⟨List.mem_cons_of_mem _ h, hne⟩

/-- A line that ends has one newline, its last character. -/
theorem mem_cutLines {l : Str} (hline : lf ∉ line) (h : l ∈ (cutLines line s).1) :
    ∃ w, lf ∉ w ∧ l = w ++ [lf] := by
  induction s generalizing line with
  | nil => cases h
  | cons c s ih =>
    unfold cutLines at h
    split at h
    · next hc =>
      rcases List.mem_cons.1 h with rfl | h
      · exact ⟨line, hline, by rw [hc]⟩
      · exact ih List.not_mem_nil h
    · next hc =>
      refine ih (fun hm => ?_) h
      rcases List.mem_append.1 hm with hm | hm
      · exact hline hm
      · exact hc (List.mem_singleton.1 hm).symm

theorem cutLines_line {w : Str} (hw : lf ∉ w) (line s : Str) :
    cutLines line (w ++ lf :: s) =
      ((line ++ w ++ [lf]) :: (cutLines [] s).1, (cutLines [] s).2) := by
  induction w generalizing line with
  | nil => simp [cutLines]
  | cons c w ih =>
    have hc : c ≠ lf := fun h => hw (h ▸ List.mem_cons_self)
    simp only [List.cons_append, cutLines, if_neg hc]
    rw [ih (fun h => hw (List.mem_cons_of_mem _ h))]
    simp

theorem cutLines_rest {w : Str} (hw : lf ∉ w) (line s : Str) :
    cutLines line (w ++ s) = cutLines (line ++ w) s := by
  induction w generalizing line with
  | nil => simp
  | cons c w ih =>
    have hc : c ≠ lf := fun h => hw (h ▸ List.mem_cons_self)
    simp only [List.cons_append, cutLines, if_neg hc]
    rw [ih (fun h => hw (List.mem_cons_of_mem _ h))]
    simp

/-- Lines that all end are cut again as they are. -/
theorem fileLines_flatten {lines : List Str} (h : ∀ l ∈ lines, ∃ w, lf ∉ w ∧ l = w ++ [lf]) :
    fileLines lines.flatten = lines := by
  have hcut : cutLines [] lines.flatten = (lines, []) := by
    induction lines with
    | nil => rfl
    | cons l lines ih =>
      obtain ⟨w, hw, rfl⟩ := h l List.mem_cons_self
      have ih := ih fun l hl => h l (List.mem_cons_of_mem _ hl)
      rw [List.flatten_cons, List.append_assoc]
      show cutLines [] (w ++ lf :: lines.flatten) = _
      rw [cutLines_line hw, ih]
      simp
  unfold fileLines
  rw [hcut]
  simp [lastLine]

/-- A character that something follows, and that is no newline, is so in its line. -/
theorem exists_line (hne : x ≠ lf) (h : x ∈ (line ++ s).dropLast) :
    ∃ l ∈ (cutLines line s).1 ++ lastLine (cutLines line s).2, x ∈ l.dropLast := by
  induction s generalizing line with
  | nil =>
    rw [List.append_nil] at h
    have hline : line ≠ [] := by rintro rfl; cases h
    exact ⟨line, by simp [cutLines, lastLine, hline], h⟩
  | cons c s ih =>
    unfold cutLines
    split
    · next hc =>
      by_cases hs : s = []
      · subst hs
        rw [List.dropLast_concat] at h
        exact ⟨line ++ [c], List.mem_cons_self, by rwa [List.dropLast_concat]⟩
      · rw [List.dropLast_append_of_ne_nil (List.cons_ne_nil _ _),
          List.dropLast_cons_of_ne_nil hs] at h
        rcases List.mem_append.1 h with h | h
        · exact ⟨line ++ [c], List.mem_cons_self, by rwa [List.dropLast_concat]⟩
        · rcases List.mem_cons.1 h with h | h
          · exact absurd (h.trans hc) hne
          · obtain ⟨l, hl, hx⟩ := @ih [] h
            exact ⟨l, List.mem_cons_of_mem _ hl, hx⟩
    · refine ih ?_
      rwa [List.append_assoc]

theorem isLineEnd_of (hlf : x ≠ lf) (hcr : x ≠ cr) :
    isLineEnd x = isSeparator x := by
  simp [isLineEnd, hlf, hcr]

/-- The pieces of `splitlines` make up the text. -/
theorem flatten_splitlinesFrom (line s : Str) : (splitlinesFrom line s).flatten = line ++ s := by
  induction s generalizing line with
  | nil => simp [splitlinesFrom, flatten_lastLine]
  | cons c s ih =>
    unfold splitlinesFrom
    split
    · simp [ih]
    · rw [ih]
      simp

/-- A piece of `splitlines` has no line end but the one that ends it. -/
theorem mem_splitlinesFrom {l : Str} (hcr : cr ∉ s) (hline : ∀ c ∈ line, isLineEnd c = false)
    (h : l ∈ splitlinesFrom line s) : ∀ c ∈ l.dropLast, isLineEnd c = false := by
  induction s generalizing line with
  | nil =>
    unfold splitlinesFrom lastLine at h
    split at h
    · cases h
    · obtain rfl := List.mem_singleton.1 h
      exact fun c hc => hline c (List.dropLast_subset _ hc)
  | cons c s ih =>
    have hc : c ≠ cr := fun h => hcr (h ▸ List.mem_cons_self)
    have hs : cr ∉ s := fun h => hcr (List.mem_cons_of_mem _ h)
    unfold splitlinesFrom at h
    split at h
    · rcases List.mem_cons.1 h with rfl | h
      · rwa [List.dropLast_concat]
      · exact ih hs (fun c hc => by cases hc) h
    · next hend =>
      have hend : isLineEnd c = false := by simpa [endsLater, hc] using hend
      refine ih hs (fun d hd => ?_) h
      rcases List.mem_append.1 hd with hd | hd
      · exact hline d hd
      · rwa [List.mem_singleton.1 hd]

end

end Py
