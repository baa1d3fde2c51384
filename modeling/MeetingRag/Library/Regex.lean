import MeetingRag.Library.Str

/-!
# Searching for a pattern

The patterns of the program ask one question, whether some part of a text matches, so a pattern is
read as the list of places where a match that begins at a given place may end. Greedy and reluctant
repetition then are the same.

A place is the code point before it and the text after it. A pattern may look at both: `boundary`
holds between a word character and none.
-/

namespace Py

/-- A place in a text. -/
structure Place where
  before : Option CodePoint
  after : Str
deriving DecidableEq, Repr

inductive Regex
  /-- One code point of a class. -/
  | char (p : CodePoint → Bool)
  /-- `^` -/
  | start
  /-- `$`, the end of the text or the newline that ends it. -/
  | finish
  /-- `\b` for a class of word characters. -/
  | boundary (word : CodePoint → Bool)
  | empty
  | seq (r s : Regex)
  | alt (r s : Regex)
  | star (r : Regex)
  /-- At most `n` times. -/
  | upTo (n : ℕ) (r : Regex)

namespace Regex

/-- The places that `f` reaches from a place in any number of steps that move on, at most `fuel`. -/
def closure (f : Place → List Place) : ℕ → Place → List Place
  | 0, p => [p]
  | fuel + 1, p =>
    p :: ((f p).filter fun q ↦ q.after.length < p.after.length).flatMap (closure f fuel)

/-- The places that `f` reaches in at most `n` steps. -/
def iterate (f : Place → List Place) : ℕ → Place → List Place
  | 0, p => [p]
  | n + 1, p => p :: (f p).flatMap (iterate f n)

/-- Where the matches that begin at a place may end. -/
def ends : Regex → Place → List Place
  | .char p, place =>
    match place.after with
    | [] => []
    | c :: rest => if p c then [⟨some c, rest⟩] else []
  | .start, place => if place.before = none then [place] else []
  | .finish, place => if place.after = [] ∨ place.after = [10] then [place] else []
  | .boundary word, place =>
    if place.before.any word != place.after.head?.any word then [place] else []
  | .empty, place => [place]
  | .seq r s, place => (r.ends place).flatMap s.ends
  | .alt r s, place => r.ends place ++ s.ends place
  | .star r, place => closure r.ends place.after.length place
  | .upTo n r, place => iterate r.ends n place

/-- The places of a text after a code point. -/
def placesFrom (before : Option CodePoint) : Str → List Place
  | [] => [⟨before, []⟩]
  | c :: rest => ⟨before, c :: rest⟩ :: placesFrom (some c) rest

/-- The places of a text. -/
def places (s : Str) : List Place := placesFrom none s

/-- `pattern.search(s) is not None`. -/
def search (r : Regex) (s : Str) : Bool := (places s).any fun p ↦ !(r.ends p).isEmpty

/-! ## Building patterns -/

/-- A letter of the English alphabet where case is ignored. The dotless and the dotted i, the long s
and the Kelvin sign are taken for the letters that they resemble. -/
def sameLetter (letter : Char) (c : CodePoint) : Bool :=
  c = codePoint letter || c = codePoint letter.toUpper ||
    (letter = 'i' && (c = 0x130 || c = 0x131)) || (letter = 's' && c = 0x17F) ||
    (letter = 'k' && c = 0x212A)

/-- A spelled-out text. -/
def text (s : String) : Regex := s.toList.foldr (fun c r ↦ .seq (.char (· = codePoint c)) r) .empty

/-- A spelled-out text of small letters and other characters, where case is ignored. -/
def textIgnoringCase (s : String) : Regex :=
  s.toList.foldr (fun c r ↦ .seq (.char (sameLetter c)) r) .empty

/-- One of several patterns. -/
def oneOf : List Regex → Regex
  | [] => .char fun _ ↦ false
  | [r] => r
  | r :: rest => .alt r (oneOf rest)

/-- Patterns in a row. -/
def all (rs : List Regex) : Regex := rs.foldr .seq .empty

/-- Once or not at all. -/
def opt (r : Regex) : Regex := .alt r .empty

/-- At least once. -/
def plus (r : Regex) : Regex := .seq r (.star r)

end Regex

/-! ## The database -/

/-- The character classes of a database, which depend on its locale beyond ASCII. -/
structure Ctype where
  space : CodePoint → Bool
  cntrl : CodePoint → Bool
  space_ascii : ∀ c : CodePoint, c.val < 0x80 → (space c = true ↔ 9 ≤ c.val ∧ c.val ≤ 13 ∨ c.val = 32)
  cntrl_ascii : ∀ c : CodePoint, c.val < 0x80 → (cntrl c = true ↔ c.val < 32 ∨ c.val = 127)

/-- The classes of the C locale. -/
def Ctype.c : Ctype where
  space c := (9 ≤ c.val && c.val ≤ 13) || c.val == 32
  cntrl c := c.val < 32 || c.val == 127
  space_ascii c _ := by simp
  cntrl_ascii c _ := by simp

/-- The word characters of ASCII. -/
def asciiWord (c : CodePoint) : Bool :=
  (48 ≤ c.val && c.val ≤ 57) || (65 ≤ c.val && c.val ≤ 90) || c.val == 95 ||
    (97 ≤ c.val && c.val ≤ 122)

/-- What a `TEXT` column or a text of a `JSONB` column can hold. -/
def StorableText (s : Str) : Prop := Scalar s ∧ (0 : CodePoint) ∉ s

instance : DecidablePred StorableText := fun s ↦
  inferInstanceAs (Decidable (Scalar s ∧ (0 : CodePoint) ∉ s))

end Py
