import NyanShopBot.Py.Words

/-!
# URLs

`urlsplit`, `urlunsplit` and `urlencode` of `urllib.parse`. A split with a host is read
back from its URL (`urlsplit_urlunsplit`), and an encoded query has none of the
characters that delimit one (`urlencode_safe`).
-/

namespace Py

/-! ## Cutting a text -/

/-- `s.partition(c)`: what is before the first `c`, and what is after it. -/
def partition (c : CodePoint) (s : Str) : Str × Option Str :=
  (s.takeWhile (· ≠ c), (s.dropWhile (· ≠ c)).tail?)

theorem takeWhile_eq_self {α : Type} {p : α → Bool} : ∀ {l : List α}, (∀ a ∈ l, p a = true) →
    l.takeWhile p = l
  | [], _ => rfl
  | a :: l, h => by
    rw [List.takeWhile_cons_of_pos (h a List.mem_cons_self),
      takeWhile_eq_self fun b hb => h b (List.mem_cons_of_mem a hb)]

theorem partition_of_not_mem {c : CodePoint} {s : Str} (h : c ∉ s) : partition c s = (s, none) := by
  have hall : ∀ d ∈ s, decide (d ≠ c) = true := fun d hd =>
    decide_eq_true fun e => h (e ▸ hd)
  have hdrop : s.dropWhile (· ≠ c) = [] := by
    have h := List.takeWhile_append_dropWhile (p := fun d => decide (d ≠ c)) (l := s)
    rw [takeWhile_eq_self hall] at h
    exact List.append_cancel_left (h.trans (List.append_nil s).symm)
  rw [partition, takeWhile_eq_self hall, hdrop]
  rfl

theorem partition_append {c : CodePoint} {s : Str} (h : c ∉ s) (t : Str) :
    partition c (s ++ c :: t) = (s, some t) := by
  have hall : ∀ d ∈ s, decide (d ≠ c) = true := fun d hd =>
    decide_eq_true fun e => h (e ▸ hd)
  rw [partition, List.takeWhile_append_of_pos hall, List.dropWhile_append_of_pos hall]
  simp

theorem mem_partition_snd {c d : CodePoint} {s t : Str} (h : (partition c s).2 = some t)
    (hd : d ∈ t) : d ∈ s := by
  unfold partition at h
  dsimp only at h
  cases hs : s.dropWhile (· ≠ c) with
  | nil =>
    rw [hs] at h
    cases h
  | cons e rest =>
    rw [hs] at h
    cases h
    exact (List.dropWhile_sublist _).subset (hs ▸ List.mem_cons_of_mem e hd)

/-- A text is the same on both sides of the first separator. -/
theorem append_cons_inj_left {α : Type} {c : α} {s s' t t' : List α} (h : c ∉ s) (h' : c ∉ s')
    (heq : s ++ c :: t = s' ++ c :: t') : s = s' ∧ t = t' := by
  induction s generalizing s' with
  | nil =>
    cases s' with
    | nil => exact ⟨rfl, (List.cons_eq_cons.1 heq).2⟩
    | cons d s' =>
      obtain ⟨rfl, -⟩ := List.cons_eq_cons.1 heq
      exact absurd List.mem_cons_self h'
  | cons d s ih =>
    cases s' with
    | nil =>
      obtain ⟨rfl, -⟩ := List.cons_eq_cons.1 heq
      exact absurd List.mem_cons_self h
    | cons d' s' =>
      obtain ⟨rfl, htail⟩ := List.cons_eq_cons.1 heq
      obtain ⟨rfl, rfl⟩ := ih (fun hm => h (List.mem_cons_of_mem d hm))
        (fun hm => h' (List.mem_cons_of_mem d hm)) htail
      exact ⟨rfl, rfl⟩

/-- And on both sides of the last one. -/
theorem append_cons_inj_right {α : Type} {c : α} {s s' t t' : List α} (h : c ∉ t) (h' : c ∉ t')
    (heq : s ++ c :: t = s' ++ c :: t') : s = s' ∧ t = t' := by
  have hrev : t.reverse ++ c :: s.reverse = t'.reverse ++ c :: s'.reverse := by
    simpa using congrArg List.reverse heq
  obtain ⟨ht, hs⟩ := append_cons_inj_left (by simpa using h) (by simpa using h') hrev
  exact ⟨List.reverse_injective hs, List.reverse_injective ht⟩

/-! ## Splitting a URL -/

/-- What the checks of a host take from the Unicode database and from `ipaddress`. -/
class HostChecks where
  /-- Whether a host with brackets, or with a character outside ASCII, is accepted. -/
  accepts : Str → Bool

structure SplitResult where
  scheme : Str
  netloc : Str
  path : Str
  query : Str
  fragment : Str
deriving DecidableEq

def isAsciiAlpha (c : CodePoint) : Bool :=
  (0x41 ≤ c.val && c.val ≤ 0x5a) || (0x61 ≤ c.val && c.val ≤ 0x7a)

/-- `scheme_chars`. -/
def isSchemeChar (c : CodePoint) : Bool :=
  isAsciiAlpha c || (0x30 ≤ c.val && c.val ≤ 0x39) || c = chr '+' || c = chr '-' || c = chr '.'

/-- `_UNSAFE_URL_BYTES_TO_REMOVE`: the tabulator and the line breaks. -/
def isRemoved (c : CodePoint) : Bool := c.val = 9 || c.val = 13 || c.val = 10

/-- The characters that end a host. -/
def isHostEnd (c : CodePoint) : Bool := c = chr '/' || c = chr '?' || c = chr '#'

def asciiLower (c : CodePoint) : CodePoint :=
  if h : 0x41 ≤ c.val ∧ c.val ≤ 0x5a then ⟨c.val + 32, by omega⟩ else c

/-- The scheme and what follows its colon. -/
def splitScheme (url : Str) : Str × Str :=
  match partition (chr ':') url with
  | (c :: scheme, some rest) =>
    if isAsciiAlpha c && (c :: scheme).all isSchemeChar then ((c :: scheme).map asciiLower, rest)
    else ([], url)
  | _ => ([], url)

/-- `_splitnetloc`: the host of a text that has one, and what follows it. -/
def splitNetloc (url : Str) : Str × Str :=
  if url.take 2 = str "//" then
    ((url.drop 2).takeWhile (!isHostEnd ·), (url.drop 2).dropWhile (!isHostEnd ·))
  else ([], url)

/-- The text that `urlsplit` reads. -/
def cleanUrl (url : Str) : Str := (url.dropWhile (·.val ≤ 0x20)).filter (!isRemoved ·)

section

variable [HostChecks]

/-- Whether `urlsplit` takes the host. -/
def isNetloc (netloc : Str) : Bool :=
  netloc.all (fun c => c.val < 128 && c ≠ chr '[' && c ≠ chr ']') || HostChecks.accepts netloc

/-- `urlsplit`, none where it raises `ValueError`. -/
def urlsplit (url : Str) : Option SplitResult :=
  let (scheme, rest) := splitScheme (cleanUrl url)
  let (netloc, rest) := splitNetloc rest
  if isNetloc netloc then
    let (rest, fragment) := partition (chr '#') rest
    let (path, query) := partition (chr '?') rest
    some ⟨scheme, netloc, path, query.getD [], fragment.getD []⟩
  else none

end

/-- What stands for the port in a host. -/
def portText (netloc : Str) : Str :=
  let hostinfo := (netloc.reverse.takeWhile (· ≠ chr '@')).reverse
  match (partition (chr '[') hostinfo).2 with
  | some bracketed =>
    (partition (chr ':') ((partition (chr ']') bracketed).2.getD [])).2.getD []
  | none => (partition (chr ':') hostinfo).2.getD []

/-- `port`, none where it raises `ValueError`. -/
def SplitResult.port (s : SplitResult) : Option (Option Nat) :=
  let port := portText s.netloc
  let value := port.foldl (fun n c => n * 10 + (c.val - 0x30)) 0
  if port = [] then some none
  else if port.all (fun c => 0x30 ≤ c.val && c.val ≤ 0x39) && value ≤ 65535 then some (some value)
  else none

/-- The query, where there is one, after its mark. -/
def queryPart (query : Str) : Str := if query = [] then [] else chr '?' :: query

/-- `urlunsplit` of a URL with a host and without a fragment. -/
def urlunsplit (scheme netloc path query : Str) : Str :=
  scheme ++ str "://" ++ netloc ++ path ++ queryPart query

/-- The path and the query, as a request names them. -/
def SplitResult.target (s : SplitResult) : Str := s.path ++ queryPart s.query

/-! ## Reading a URL back -/

theorem mem_splitScheme {url : Str} {c : CodePoint} (h : c ∈ (splitScheme url).2) : c ∈ url := by
  unfold splitScheme at h
  split at h
  · rename_i d scheme rest hp
    split at h
    · exact mem_partition_snd (congrArg Prod.snd hp) h
    · exact h
  · exact h

theorem mem_splitNetloc {url : Str} {c : CodePoint} (h : c ∈ (splitNetloc url).1) :
    isHostEnd c = false ∧ c ∈ url := by
  unfold splitNetloc at h
  split at h
  · have hall : ((url.drop 2).takeWhile (!isHostEnd ·)).all (!isHostEnd ·) = true :=
      List.all_takeWhile
    refine ⟨by simpa using List.all_eq_true.1 hall c h, ?_⟩
    exact List.mem_of_mem_drop ((List.takeWhile_sublist _).subset h)
  · cases h

/-- A host ends before the path, and nothing is removed from it. -/
def IsHost [HostChecks] (netloc : Str) : Prop :=
  isNetloc netloc = true ∧ ∀ c ∈ netloc, isHostEnd c = false ∧ isRemoved c = false

theorem isHost_of_urlsplit [HostChecks] {url : Str} {s : SplitResult}
    (h : urlsplit url = some s) : IsHost s.netloc := by
  unfold urlsplit at h
  simp only at h
  split at h
  · rename_i hnetloc
    cases h
    refine ⟨hnetloc, fun c hc => ⟨(mem_splitNetloc hc).1, ?_⟩⟩
    have hclean := mem_splitScheme (mem_splitNetloc hc).2
    simpa using (List.mem_filter.1 hclean).2
  · cases h

theorem splitScheme_append {c : CodePoint} {scheme rest : Str} (hc : isAsciiAlpha c = true)
    (hscheme : (c :: scheme).all isSchemeChar = true)
    (hlower : (c :: scheme).map asciiLower = c :: scheme) :
    splitScheme ((c :: scheme) ++ chr ':' :: rest) = (c :: scheme, rest) := by
  have hcolon : chr ':' ∉ c :: scheme := by
    intro h
    have := List.all_eq_true.1 hscheme _ h
    revert this
    decide
  rw [splitScheme, partition_append hcolon]
  simp only [hc, hscheme, Bool.and_self, if_true, hlower]

theorem splitNetloc_append {netloc path : Str} (h : ∀ c ∈ netloc, isHostEnd c = false)
    (hpath : path.head?.all isHostEnd = true) :
    splitNetloc (str "//" ++ netloc ++ path) = (netloc, path) := by
  have hall : ∀ c ∈ netloc, (!isHostEnd c) = true := fun c hc => by rw [h c hc]; rfl
  have htake : (str "//" ++ netloc ++ path).take 2 = str "//" := by
    rw [List.append_assoc, List.take_left']
    rfl
  have hdrop : (str "//" ++ netloc ++ path).drop 2 = netloc ++ path := by
    rw [List.append_assoc, List.drop_left']
    rfl
  have hend : path.takeWhile (!isHostEnd ·) = [] ∧ path.dropWhile (!isHostEnd ·) = path := by
    cases path with
    | nil => exact ⟨rfl, rfl⟩
    | cons c path =>
      have hc : isHostEnd c = true := by simpa using hpath
      simp [hc]
  rw [splitNetloc, if_pos htake, hdrop, List.takeWhile_append_of_pos hall,
    List.dropWhile_append_of_pos hall, hend.1, hend.2, List.append_nil]

/-- A character that neither ends a part of a URL nor is removed from it. -/
def isUrlChar (c : CodePoint) : Bool := !isHostEnd c && !isRemoved c

/-- **A split is read back from its URL.** -/
theorem urlsplit_urlunsplit [HostChecks] {netloc path query : Str} (hhost : IsHost netloc)
    (hpath : path.head? = some (chr '/'))
    (hpathChars : path.all (fun c => c = chr '/' || isUrlChar c) = true)
    (hquery : query.all isUrlChar = true) :
    urlsplit (urlunsplit (str "https") netloc path query) =
      some ⟨str "https", netloc, path, query, []⟩ := by
  have hpath' : ∀ c ∈ path, c = chr '/' ∨ isUrlChar c = true := fun c hc => by
    simpa using List.all_eq_true.1 hpathChars c hc
  have hquery' : ∀ c ∈ query, isUrlChar c = true := List.all_eq_true.1 hquery
  have hno : ∀ d : CodePoint, d ≠ chr '/' → isUrlChar d = false → d ∉ path ∧ d ∉ query := by
    intro d hslash hd
    refine ⟨fun h => ?_, fun h => ?_⟩
    · rcases hpath' d h with h | h
      · exact hslash h
      · rw [hd] at h
        cases h
    · have := hquery' d h
      rw [hd] at this
      cases this
  have hclean : cleanUrl (urlunsplit (str "https") netloc path query) =
      urlunsplit (str "https") netloc path query := by
    have hkeep : ∀ c ∈ urlunsplit (str "https") netloc path query, (!isRemoved c) = true := by
      have hurl : ∀ c, isUrlChar c = true → (!isRemoved c) = true := by
        intro c hc
        simp only [isUrlChar, Bool.and_eq_true] at hc
        exact hc.2
      have hstart : (str "https" ++ str "://").all (!isRemoved ·) = true := by decide +kernel
      intro c hc
      simp only [urlunsplit, List.mem_append] at hc
      rcases hc with ((hc | hc) | hc) | hc
      · exact List.all_eq_true.1 hstart c (List.mem_append.2 hc)
      · rw [(hhost.2 c hc).2]
        rfl
      · rcases hpath' c hc with rfl | hc
        · decide
        · exact hurl c hc
      · unfold queryPart at hc
        split at hc
        · cases hc
        · rcases List.mem_cons.1 hc with rfl | hc
          · decide
          · exact hurl c (hquery' c hc)
    rw [cleanUrl, show (urlunsplit (str "https") netloc path query).dropWhile (·.val ≤ 0x20) =
      urlunsplit (str "https") netloc path query from rfl]
    exact List.filter_eq_self.2 hkeep
  have hscheme : splitScheme (urlunsplit (str "https") netloc path query) =
      (str "https", str "//" ++ netloc ++ (path ++ queryPart query)) := by
    have hcut : urlunsplit (str "https") netloc path query =
        (chr 'h' :: str "ttps") ++
          chr ':' :: (str "//" ++ netloc ++ (path ++ queryPart query)) := by
      simp only [urlunsplit, List.append_assoc]
      rfl
    rw [hcut, splitScheme_append (by decide) (by decide +kernel) (by decide +kernel)]
    rfl
  have hhead : (path ++ queryPart query).head?.all isHostEnd = true := by
    rw [List.head?_append, hpath]
    show isHostEnd (chr '/') = true
    decide
  have hfragment : chr '#' ∉ path ++ queryPart query := by
    have h := hno (chr '#') (by decide) (by decide)
    rw [List.mem_append, queryPart]
    split
    · simpa using h.1
    · simpa using ⟨h.1, by decide, h.2⟩
  have hmark := (hno (chr '?') (by decide) (by decide)).1
  unfold urlsplit
  rw [hclean, hscheme]
  simp only [splitNetloc_append (fun c hc => (hhost.2 c hc).1) hhead, hhost.1, if_true,
    partition_of_not_mem hfragment]
  unfold queryPart
  split
  · rename_i h
    rw [List.append_nil, partition_of_not_mem hmark, h]
    rfl
  · rw [partition_append hmark]
    rfl

/-! ## Encoding a query -/

/-- `_ALWAYS_SAFE`, of the value of a byte. -/
def isAlwaysSafe (n : Nat) : Bool :=
  (0x41 ≤ n && n ≤ 0x5a) || (0x61 ≤ n && n ≤ 0x7a) || (0x30 ≤ n && n ≤ 0x39) || n = 0x5f ||
    n = 0x2e || n = 0x2d || n = 0x7e

def upperHexDigit (n : Nat) : CodePoint := chr (Nat.digitChar n).toUpper

/-- `f"%{n:02X}"`. -/
def percentByte (n : Nat) : Str := [chr '%', upperHexDigit (n / 16), upperHexDigit (n % 16)]

/-- `quote_plus` of one byte. -/
def quotePlusByte (n : Nat) : Str :=
  if n = 0x20 then [chr '+']
  else if isAlwaysSafe n then [chr (Char.ofNat n)]
  else percentByte n

/-- `quote_plus`, none where it raises `UnicodeEncodeError`. -/
def quotePlus (s : Str) : Option Str :=
  (encodeUtf8 s).map fun data => data.flatMap fun b => quotePlusByte b.toNat

/-- `urlencode`. -/
def urlencode (query : List (Str × Str)) : Option Str := do
  let fields ← query.mapM fun q => do
    let name ← quotePlus q.1
    let value ← quotePlus q.2
    return name ++ str "=" ++ value
  return join (str "&") fields

/-- What an encoded query is made of. -/
def isQueryChar (c : CodePoint) : Bool :=
  0x20 < c.val && c.val < 0x7f && isUrlChar c && c ≠ chr '|'

theorem isQueryChar_of_val {c : CodePoint} (h : 0x20 < c.val ∧ c.val < 0x7f)
    (hne : c.val ≠ 0x2f ∧ c.val ≠ 0x3f ∧ c.val ≠ 0x23 ∧ c.val ≠ 0x7c) : isQueryChar c = true := by
  have hchr : ∀ d : CodePoint, c.val ≠ d.val → c ≠ d := fun d hd e => hd (e ▸ rfl)
  have hslash := hchr (chr '/') hne.1
  have hmark := hchr (chr '?') hne.2.1
  have hhash := hchr (chr '#') hne.2.2.1
  have hbar := hchr (chr '|') hne.2.2.2
  simp only [isQueryChar, isUrlChar, isHostEnd, isRemoved, hslash, hmark, hhash, hbar, ne_eq,
    not_false_eq_true, decide_true, decide_false, Bool.or_self, Bool.not_false, Bool.true_and,
    Bool.and_true, Bool.and_eq_true, decide_eq_true_eq, Bool.not_eq_true', Bool.or_eq_false_iff,
    decide_eq_false_iff_not]
  omega

theorem isUrlChar_of_isQueryChar {c : CodePoint} (h : isQueryChar c = true) :
    isUrlChar c = true := by
  simp only [isQueryChar, Bool.and_eq_true] at h
  exact h.1.2

theorem bar_not_query : isQueryChar (chr '|') = false := by decide

theorem quotePlusByte_chars : ∀ n < 256, (quotePlusByte n).all isQueryChar = true := by
  decide +kernel

theorem quotePlus_chars {s t : Str} (h : quotePlus s = some t) : ∀ c ∈ t, isQueryChar c = true := by
  obtain ⟨data, -, rfl⟩ := Option.map_eq_some_iff.1 h
  intro c hc
  obtain ⟨b, -, hb⟩ := List.mem_flatMap.1 hc
  exact List.all_eq_true.1 (quotePlusByte_chars b.toNat b.toNat_lt) c hb

theorem forall_of_mapM {α β : Type} {f : α → Option β} {R : β → Prop} :
    ∀ {l : List α} {bs : List β},
    l.mapM f = some bs → (∀ a b, f a = some b → R b) → ∀ b ∈ bs, R b
  | [], bs, h, _ => by
    obtain rfl : [] = bs := by simpa using h
    simp
  | a :: l, bs, h, hR => by
    rw [List.mapM_cons] at h
    obtain ⟨b, hb, h⟩ := Option.bind_eq_some_iff.1 h
    obtain ⟨bs', hbs, h⟩ := Option.bind_eq_some_iff.1 h
    obtain rfl : b :: bs' = bs := by simpa using h
    intro x hx
    rcases List.mem_cons.1 hx with rfl | hx
    · exact hR a x hb
    · exact forall_of_mapM hbs hR x hx

/-- **An encoded query** has no character that ends a part of a URL, and no bar. -/
theorem urlencode_chars {query : List (Str × Str)} {s : Str} (h : urlencode query = some s) :
    ∀ c ∈ s, isQueryChar c = true := by
  obtain ⟨fields, hfields, h⟩ := Option.bind_eq_some_iff.1 h
  obtain rfl : join (str "&") fields = s := by simpa using h
  have hall : ∀ field ∈ fields, ∀ c ∈ field, isQueryChar c = true := by
    refine forall_of_mapM hfields fun q field hq => ?_
    obtain ⟨name, hname, hq⟩ := Option.bind_eq_some_iff.1 hq
    obtain ⟨value, hvalue, hq⟩ := Option.bind_eq_some_iff.1 hq
    obtain rfl : name ++ str "=" ++ value = field := by simpa using hq
    intro c hc
    rcases List.mem_append.1 hc with hc | hc
    · rcases List.mem_append.1 hc with hc | hc
      · exact quotePlus_chars hname c hc
      · rw [List.mem_singleton.1 hc]
        decide +kernel
    · exact quotePlus_chars hvalue c hc
  intro c hc
  rcases mem_join hc with hc | ⟨field, hfield, hc⟩
  · rw [List.mem_singleton.1 hc]
    decide +kernel
  · exact hall field hfield c hc

example : urlencode [(str "name", str "a b|c"), (str "page", str "1")] =
    some (str "name=a+b%7Cc&page=1") := by decide +kernel

end Py
