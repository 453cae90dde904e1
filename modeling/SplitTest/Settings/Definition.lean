import SplitTest.Text.Blank

/-
  Definitions: the lines of a settings file, each of which gives a value to a name.
  A value may be quoted, and may then hold line feeds; comments start with a number sign. A line
  that cannot be read is skipped, from the point where reading it stopped. Every line is shorter
  than the text it is taken from, so reading ends.
-/

namespace SplitTest

/-- A name with its value, if it is given one. -/
structure Definition where
  name : String
  value : Option String
  deriving DecidableEq, Repr

namespace Definition

/-- White space within a line. -/
def isGap (c : Char) : Bool :=
  Text.isSpace c && c != '\n'

/-- One form for all line ends. -/
def unifyLines : List Char → List Char
  | '\r' :: '\n' :: rest => '\n' :: unifyLines rest
  | '\r' :: rest => '\n' :: unifyLines rest
  | c :: rest => c :: unifyLines rest
  | [] => []

/-! ## Names -/

/-- A character of a name without quotes. -/
def isNameChar (c : Char) : Bool :=
  c != '=' && c != '#' && !Text.isSpace c

/-- The word that may stand in front of a name. -/
def leadIn : List Char := ['e', 'x', 'p', 'o', 'r', 't']

/-- What follows the word in front of a name, if it is there with a gap behind it. -/
def afterLeadIn (cs : List Char) : List Char :=
  let rest := cs.drop leadIn.length
  if leadIn.isPrefixOf cs && rest.head?.any isGap then rest.dropWhile isGap else cs

/-- The name at the start of a text, and what follows it. -/
def name? : List Char → Option (List Char × List Char)
  | '\'' :: rest =>
    let name := rest.takeWhile (· != '\'')
    match rest.dropWhile (· != '\'') with
    | [] => none
    | _ :: after => if name = [] then none else some (name, after)
  | cs =>
    let name := cs.takeWhile isNameChar
    if name = [] then none else some (name, cs.dropWhile isNameChar)

/-! ## Values -/

/-- The text in front of the quote that closes it, and what follows that quote. A backslash takes
the next character with it, whatever that is. -/
def quoted? (quote : Char) : List Char → Option (List Char × List Char)
  | [] => none
  | '\\' :: c :: rest => (quoted? quote rest).map fun r => ('\\' :: c :: r.1, r.2)
  | c :: rest =>
    if c = quote then some ([], rest)
    else (quoted? quote rest).map fun r => (c :: r.1, r.2)

/-- The characters that may be escaped between single quotes. -/
def plainEscape (c : Char) : Option Char :=
  if c = '\\' ∨ c = '\'' then some c else none

/-- The characters that may be escaped between double quotes, with what they stand for. -/
def fullEscape (c : Char) : Option Char :=
  (['\\', '\'', '"', 'a', 'b', 'f', 'n', 'r', 't', 'v'].zip
    ['\\', '\'', '"', '\x07', '\x08', '\x0c', '\n', '\r', '\t', '\x0b']).lookup c

/-- Resolves escapes; a backslash in front of any other character stays. -/
def resolve (escape : Char → Option Char) : List Char → List Char
  | [] => []
  | '\\' :: c :: rest =>
    match escape c with
    | some d => d :: resolve escape rest
    | none => '\\' :: resolve escape (c :: rest)
  | c :: rest => c :: resolve escape rest

/-- What stands in front of the first number sign that has white space before it. -/
def beforeComment : List Char → List Char
  | [] => []
  | c :: rest =>
    if Text.isSpace c && rest.head? == some '#' then [] else c :: beforeComment rest

/-- The value behind an equals sign, and what follows it. A value without quotes takes the whole
line but for a comment and the white space at both ends. -/
def value? (cs : List Char) : Option (List Char × List Char) :=
  match cs.dropWhile isGap with
  | '\'' :: rest => (quoted? '\'' rest).map fun r => (resolve plainEscape r.1, r.2)
  | '"' :: rest => (quoted? '"' rest).map fun r => (resolve fullEscape r.1, r.2)
  | _ =>
    some (Text.trim Text.isSpace (beforeComment (cs.takeWhile (· != '\n'))),
      cs.dropWhile (· != '\n'))

/-! ## Lines -/

/-- Whether nothing but a comment is left on the line. -/
def endsLine (cs : List Char) : Bool :=
  match cs.dropWhile isGap with
  | [] => true
  | c :: _ => c == '\n' || c == '#'

/-- What a line defines, if it can be read, and the text from where reading it stopped. -/
def ofLine (cs : List Char) : Option Definition × List Char :=
  match name? (afterLeadIn cs) with
  | none => (none, cs)
  | some (name, after) =>
    match after.dropWhile isGap with
    | '=' :: start =>
      match value? start with
      | none => (none, start)
      | some (value, rest) =>
        (if endsLine rest then some ⟨String.ofList name, some (String.ofList value)⟩ else none,
          rest)
    | rest => (if endsLine rest then some ⟨String.ofList name, none⟩ else none, rest)

/-- What follows the next line feed. -/
def nextLine (cs : List Char) : List Char :=
  (cs.dropWhile (· != '\n')).drop 1

theorem length_dropWhile_le {p : Char → Bool} (cs : List Char) :
    (cs.dropWhile p).length ≤ cs.length :=
  (List.dropWhile_sublist p).length_le

theorem length_afterLeadIn_le (cs : List Char) : (afterLeadIn cs).length ≤ cs.length := by
  unfold afterLeadIn
  dsimp only
  split
  · exact Nat.le_trans (length_dropWhile_le _) (by simp)
  · exact Nat.le_refl _

theorem length_of_name? {cs name after : List Char} (h : name? cs = some (name, after)) :
    after.length ≤ cs.length := by
  unfold name? at h
  split at h
  · next rest =>
    have := length_dropWhile_le (p := (· != '\'')) rest
    dsimp only at h
    split at h
    · exact absurd h (by simp)
    · next e =>
      split at h
      · exact absurd h (by simp)
      · simp only [Option.some.injEq, Prod.mk.injEq] at h
        obtain ⟨-, rfl⟩ := h
        rw [e] at this
        simp only [List.length_cons] at this ⊢
        omega
  · dsimp only at h
    split at h
    · exact absurd h (by simp)
    · simp only [Option.some.injEq, Prod.mk.injEq] at h
      obtain ⟨-, rfl⟩ := h
      exact length_dropWhile_le _

theorem length_of_quoted? {quote : Char} {cs text after : List Char}
    (h : quoted? quote cs = some (text, after)) : after.length ≤ cs.length := by
  fun_induction quoted? quote cs generalizing text after with
  | case1 => simp at h
  | case2 c rest ih =>
    obtain ⟨r, hr, e⟩ := Option.map_eq_some_iff.1 h
    simp only [Prod.mk.injEq] at e
    have := ih hr
    simp only [← e.2, List.length_cons]
    omega
  | case3 rest =>
    simp only [Option.some.injEq, Prod.mk.injEq] at h
    simp [← h.2]
  | case4 c rest hc hq ih =>
    obtain ⟨r, hr, e⟩ := Option.map_eq_some_iff.1 h
    simp only [Prod.mk.injEq] at e
    have := ih hr
    simp only [← e.2, List.length_cons]
    omega

theorem length_of_value? {cs value rest : List Char} (h : value? cs = some (value, rest)) :
    rest.length ≤ cs.length := by
  have hg := length_dropWhile_le (p := isGap) cs
  unfold value? at h
  split at h
  · next e =>
    obtain ⟨r, hr, e'⟩ := Option.map_eq_some_iff.1 h
    have := length_of_quoted? hr
    simp only [Prod.mk.injEq] at e'
    simp only [e, List.length_cons] at hg
    simp only [← e'.2]
    omega
  · next e =>
    obtain ⟨r, hr, e'⟩ := Option.map_eq_some_iff.1 h
    have := length_of_quoted? hr
    simp only [Prod.mk.injEq] at e'
    simp only [e, List.length_cons] at hg
    simp only [← e'.2]
    omega
  · simp only [Option.some.injEq, Prod.mk.injEq] at h
    rw [← h.2]
    exact length_dropWhile_le _

theorem length_ofLine_le (cs : List Char) : (ofLine cs).2.length ≤ cs.length := by
  unfold ofLine
  split
  · exact Nat.le_refl _
  · next name after h =>
    have h₁ := length_of_name? h
    have h₂ := length_afterLeadIn_le cs
    have h₃ := length_dropWhile_le (p := isGap) after
    split
    · next start e =>
      rw [e] at h₃
      simp only [List.length_cons] at h₃
      split
      · dsimp only
        omega
      · next value rest hv =>
        have := length_of_value? hv
        dsimp only
        omega
    · dsimp only
      omega

theorem length_nextLine_lt {cs : List Char} {n : Nat} (h : cs.length ≤ n) (hn : 0 < n) :
    (nextLine cs).length < n := by
  have := length_dropWhile_le (p := (· != '\n')) cs
  simp only [nextLine, List.length_drop]
  omega

/-- All definitions of a text, line by line. -/
def ofLines (cs : List Char) : List Definition :=
  match _ : cs.dropWhile Text.isSpace with
  | [] => []
  | c :: rest =>
    let line := ofLine (c :: rest)
    line.1.toList ++ ofLines (nextLine line.2)
termination_by cs.length
decreasing_by
  have h₁ := length_dropWhile_le (p := Text.isSpace) cs
  have h₂ := length_ofLine_le (c :: rest)
  rw [‹cs.dropWhile Text.isSpace = c :: rest›] at h₁
  exact Nat.lt_of_lt_of_le (length_nextLine_lt h₂ (by simp)) h₁

/-- The definitions of a settings file. A byte order mark at its start says nothing. -/
def ofFile (text : String) : List Definition :=
  match unifyLines text.toList with
  | '\ufeff' :: rest => ofLines rest
  | cs => ofLines cs

end Definition

end SplitTest
