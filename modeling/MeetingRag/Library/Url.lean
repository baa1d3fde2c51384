import MeetingRag.Library.Str

/-!
# Splitting URLs

`urlsplit` drops control characters and space in front of a URL and the tabs and newlines inside it, and
cuts the rest at the first characters that end a scheme, a network location, a path and a query. It
refuses a network location only for its brackets and for what it becomes under NFKC.

The Unicode tables are parameters. A code point is lowered by its place in the text, since the capital
sigma has two small letters, and what comes out is not lowered further.
-/

namespace Py.Url

/-! ## Cutting -/

/-- The text after the first `c`, or nothing. -/
def afterFirst (c : CodePoint) (s : Str) : Str := (s.dropWhile (· ≠ c)).drop 1

/-- The text before the first `c`, or all of it. -/
def beforeFirst (c : CodePoint) (s : Str) : Str := s.takeWhile (· ≠ c)

/-- `text.rpartition(c)[2]` -/
def afterLast (c : CodePoint) (s : Str) : Str := s.rtakeWhile (· ≠ c)

/-! ## Lower case -/

/-- A capital letter of ASCII becomes small. -/
def lowerAscii (c : CodePoint) : CodePoint :=
  if 65 ≤ c.val ∧ c.val ≤ 90 then c + 32 else c

theorem lowerAscii_of_capital {c : CodePoint} (h : 65 ≤ c.val ∧ c.val ≤ 90) :
    (lowerAscii c).val = c.val + 32 := by
  have hlt : c.val + 32 < 0x110000 := by omega
  rw [lowerAscii, if_pos h, Fin.val_add]
  exact Nat.mod_eq_of_lt hlt

theorem lowerAscii_of_not {c : CodePoint} (h : ¬(65 ≤ c.val ∧ c.val ≤ 90)) : lowerAscii c = c :=
  if_neg h

/-- `str.lower` -/
structure Casing where
  /-- What the code point at a place of a text becomes. -/
  lowerAt : Str → ℕ → CodePoint → Str
  /-- The code points that are not lowered further. -/
  lowered : CodePoint → Bool
  ascii : ∀ s i c, c.val < 0x80 → lowerAt s i c = [lowerAscii c]
  beyond : ∀ s i c, 0x80 ≤ c.val → lowerAt s i c ≠ [] ∧
    ∀ d ∈ lowerAt s i c, d.val < 0x80 → 97 ≤ d.val ∧ d.val ≤ 122
  settled : ∀ s i c, ∀ d ∈ lowerAt s i c, lowered d = true
  fixed : ∀ s i c, lowered c = true → lowerAt s i c = [c]

namespace Casing

/-- `text.lower()` -/
def lower (k : Casing) (s : Str) : Str := s.zipIdx.flatMap fun p ↦ k.lowerAt s p.2 p.1

/-- The casing of ASCII, where no other code point has a case. -/
def onlyAscii : Casing where
  lowerAt _ _ c := [lowerAscii c]
  lowered c := decide ¬(65 ≤ c.val ∧ c.val ≤ 90)
  ascii _ _ _ _ := rfl
  beyond _ _ c hc := by
    refine ⟨List.cons_ne_nil _ _, List.forall_mem_singleton.mpr fun hd ↦ ?_⟩
    rw [lowerAscii_of_not (by omega)] at hd
    omega
  settled _ _ c := by
    refine List.forall_mem_singleton.mpr (decide_eq_true ?_)
    by_cases h : 65 ≤ c.val ∧ c.val ≤ 90
    · rw [lowerAscii_of_capital h]
      omega
    · rwa [lowerAscii_of_not h]
  fixed _ _ c h := by rw [lowerAscii_of_not (of_decide_eq_true h)]

end Casing

/-! ## Splitting -/

/-- The Unicode tables, and the addresses that may stand in brackets. -/
structure Tables where
  casing : Casing
  nfkc : Str → Str
  /-- `_check_bracketed_host` -/
  bracketed : Str → Bool

/-- Tables that are those of Unicode on ASCII, and have no address in brackets. -/
def Tables.ascii : Tables := ⟨.onlyAscii, id, fun _ ↦ false⟩

/-- `SplitResult` -/
structure SplitResult where
  scheme : Str
  netloc : Str
  path : Str
  query : Str
  fragment : Str
deriving DecidableEq, Repr

/-- The characters of a scheme. -/
def isSchemeChar (c : CodePoint) : Bool :=
  (48 ≤ c.val && c.val ≤ 57) || (65 ≤ c.val && c.val ≤ 90) || (97 ≤ c.val && c.val ≤ 122) ||
    c = 43 || c = 45 || c = 46

def isAlpha (c : CodePoint) : Bool :=
  (65 ≤ c.val && c.val ≤ 90) || (97 ≤ c.val && c.val ≤ 122)

/-- The scheme and the rest of a URL. -/
def splitScheme (url : Str) : Str × Str :=
  if 58 ∈ url ∧ (url.head?.any isAlpha) = true ∧ (beforeFirst 58 url).all isSchemeChar = true then
    ((beforeFirst 58 url).map lowerAscii, afterFirst 58 url)
  else ([], url)

/-- `_splitnetloc` after two slashes. -/
def splitNetloc (url : Str) : Str × Str :=
  (url.takeWhile fun c ↦ ¬(c = 47 ∨ c = 63 ∨ c = 35),
    url.dropWhile fun c ↦ ¬(c = 47 ∨ c = 63 ∨ c = 35))

/-- `_check_bracketed_netloc` -/
def checkBracketedNetloc (t : Tables) (netloc : Str) : Bool :=
  let hostnameAndPort := afterLast 64 netloc
  let bracketed := afterFirst 91 hostnameAndPort
  if 91 ∈ hostnameAndPort then
    beforeFirst 91 hostnameAndPort = [] &&
      (afterFirst 93 bracketed).head?.all (· = 58) && t.bracketed (beforeFirst 93 bracketed)
  else t.bracketed (beforeFirst 58 hostnameAndPort)

/-- `_checknetloc` -/
def checkNetloc (t : Tables) (netloc : Str) : Bool :=
  let plain := netloc.filter fun c ↦ ¬(c = 64 ∨ c = 58 ∨ c = 35 ∨ c = 63)
  netloc.all (·.val < 0x80) || plain = t.nfkc plain ||
    (t.nfkc plain).all fun c ↦ ¬(c = 47 ∨ c = 63 ∨ c = 35 ∨ c = 64 ∨ c = 58)

/-- A network location that `urlsplit` accepts. -/
def NetlocOk (t : Tables) (netloc : Str) : Prop :=
  (91 ∈ netloc ↔ 93 ∈ netloc) ∧ (91 ∈ netloc → checkBracketedNetloc t netloc = true) ∧
    checkNetloc t netloc = true

instance (t : Tables) : DecidablePred (NetlocOk t) := fun netloc ↦
  inferInstanceAs (Decidable ((91 ∈ netloc ↔ 93 ∈ netloc) ∧
    (91 ∈ netloc → checkBracketedNetloc t netloc = true) ∧ checkNetloc t netloc = true))

/-- The URL without what `urlsplit` drops. -/
def cleaned (url : Str) : Str :=
  (url.dropWhile (·.val ≤ 32)).filter fun c ↦ ¬(c = 9 ∨ c = 10 ∨ c = 13)

/-- The network location and the rest of a URL without its scheme. -/
def locate (url : Str) : Str × Str :=
  if url.take 2 = [47, 47] then splitNetloc (url.drop 2) else ([], url)

/-- `urlsplit(url)`, where `none` is a `ValueError`. -/
def urlsplit (t : Tables) (url : Str) : Option SplitResult :=
  let (scheme, rest) := splitScheme (cleaned url)
  let (netloc, rest) := locate rest
  if NetlocOk t netloc then
    some ⟨scheme, netloc, beforeFirst 63 (beforeFirst 35 rest), afterFirst 63 (beforeFirst 35 rest),
      afterFirst 35 rest⟩
  else none

/-- The path without the parameters of its last segment. -/
def withoutParams (path : Str) : Str :=
  path.rdropWhile (· ≠ 47) ++ beforeFirst 59 (path.rtakeWhile (· ≠ 47))

/-- `uses_params` -/
def usesParams : List String :=
  ["", "ftp", "hdl", "prospero", "http", "https", "shttp", "rtsp", "rtsps", "rtspu", "sip", "sips",
    "mms", "sftp", "tel"]

/-- `urlparse(url)`, without the parameters. -/
def urlparse (t : Tables) (url : Str) : Option SplitResult :=
  (urlsplit t url).map fun parts ↦
    if parts.scheme ∈ usesParams.map lit then { parts with path := withoutParams parts.path }
    else parts

/-! ## The host -/

/-- `_hostinfo`, where an empty port is `None`. -/
def hostinfo (netloc : Str) : Str × Str :=
  let hostinfo := afterLast 64 netloc
  let bracketed := afterFirst 91 hostinfo
  if 91 ∈ hostinfo then
    (beforeFirst 93 bracketed, afterFirst 58 (afterFirst 93 bracketed))
  else (beforeFirst 58 hostinfo, afterFirst 58 hostinfo)

/-- `hostname`, where the empty text is `None`: the zone of an address keeps its case. -/
def hostname (t : Tables) (netloc : Str) : Str :=
  let host := (hostinfo netloc).1
  t.casing.lower (beforeFirst 37 host) ++ host.dropWhile (· ≠ 37)

/-- Whether `port` is read without a `ValueError`. -/
def ValidPort (netloc : Str) : Prop :=
  (hostinfo netloc).2 = [] ∨
    ((hostinfo netloc).2.all fun c ↦ 48 ≤ c.val && c.val ≤ 57) = true ∧
      (hostinfo netloc).2.foldl (fun n c ↦ 10 * n + (c.val - 48)) 0 ≤ 65535

instance : DecidablePred ValidPort := fun netloc ↦
  inferInstanceAs (Decidable ((hostinfo netloc).2 = [] ∨
    ((hostinfo netloc).2.all fun c ↦ 48 ≤ c.val && c.val ≤ 57) = true ∧
      (hostinfo netloc).2.foldl (fun n c ↦ 10 * n + (c.val - 48)) 0 ≤ 65535))

example : (urlsplit .ascii (lit "HTTPS://Example.COM:8443/a/b?q=1#top")).map
    (fun parts ↦ (parts.scheme, hostname .ascii parts.netloc, parts.path)) =
      some (lit "https", lit "example.com", lit "/a/b") := by
  decide +kernel

end Py.Url
