import Mathlib.Data.List.Basic

/-!
# Text

The string operations of the program's standard library, on lists of
characters: trimming and splitting at Unicode white space, lowercasing with
the final-sigma rule, and comparison up to ASCII case.  The length of a text
is the number of bytes of its UTF-8 form, `String.utf8ByteSize`.

The case tables themselves are data of the Unicode standard.  They are a
parameter, together with the facts about them that the program relies on.
-/

namespace Ratspeak.Library

/-- The characters with the property `White_Space`. -/
def isWhitespace (char : Char) : Bool :=
  let code := char.toNat
  (0x09 ≤ code && code ≤ 0x0D) || code == 0x20 || code == 0x85 ||
    code == 0xA0 || code == 0x1680 ||
    (0x2000 ≤ code && code ≤ 0x200A) || code == 0x2028 ||
    code == 0x2029 || code == 0x202F || code == 0x205F || code == 0x3000

/-- The characters of the general category `Cc`. -/
def isControl (char : Char) : Bool :=
  char.toNat ≤ 0x1F || (0x7F ≤ char.toNat && char.toNat ≤ 0x9F)

/-- The case tables of the Unicode standard. -/
class UnicodeTables where
  /-- The unconditional lowercase mapping of a character. -/
  lower : Char → List Char
  cased : Char → Bool
  caseIgnorable : Char → Bool
  lower_ascii : ∀ char, char.toNat < 128 → lower char = [char.toLower]
  lower_ne_nil : ∀ char, lower char ≠ []
  lower_settled : ∀ char, char ≠ 'Σ' → ∀ small ∈ lower char, small ≠ 'Σ' ∧ lower small = [small]
  lower_sigma : lower 'σ' = ['σ']
  lower_finalSigma : lower 'ς' = ['ς']
  lower_visible : ∀ char, isWhitespace char = false →
    ∀ small ∈ lower char, isWhitespace small = false

private theorem toLower_of_not_upper {char : Char}
    (notUpper : ¬ (char.val ≥ 'A'.val ∧ char.val ≤ 'Z'.val)) :
    char.toLower = char :=
  dif_neg notUpper

private theorem toNat_toLower (char : Char) :
    char.toLower.toNat = char.toNat ∨
      (char.toLower.toNat = char.toNat + 32 ∧ 97 ≤ char.toLower.toNat ∧
        char.toLower.toNat ≤ 122) := by
  by_cases upper : char.val ≥ 'A'.val ∧ char.val ≤ 'Z'.val
  · have low : 65 ≤ char.val.toNat := upper.1
    have high : char.val.toNat ≤ 90 := upper.2
    have lowered : char.toLower.val = char.val + ('a'.val - 'A'.val) :=
      congrArg Char.val (dif_pos upper)
    have offset : ('a'.val - 'A'.val).toNat = 32 := by decide
    right
    rw [← Char.toNat_val, lowered, ← Char.toNat_val, UInt32.toNat_add, offset]
    omega
  · exact Or.inl (congrArg Char.toNat (toLower_of_not_upper upper))

private theorem toLower_toLower (char : Char) :
    char.toLower.toLower = char.toLower := by
  by_cases upper : char.val ≥ 'A'.val ∧ char.val ≤ 'Z'.val
  · rcases toNat_toLower char with same | ⟨-, low, -⟩
    · rw [Char.toNat_inj.mp same, Char.toNat_inj.mp same]
    · refine toLower_of_not_upper ?_
      rintro ⟨-, atMost⟩
      have bound : char.toLower.toNat ≤ 90 := atMost
      omega
  · have kept : char.toLower = char := toLower_of_not_upper upper
    rw [kept, kept]

/-- The part of the tables that covers ASCII and the Greek sigma. -/
@[reducible]
def asciiTables : UnicodeTables where
  lower char := if char = 'Σ' then ['σ'] else [char.toLower]
  cased char := char.isAlpha
  caseIgnorable char := char == '\'' || char == '.'
  lower_ascii := by
    intro char small
    have other : char ≠ 'Σ' := by
      rintro rfl
      exact absurd small (by decide)
    rw [if_neg other]
  lower_ne_nil := by
    intro char
    split <;> simp
  lower_settled := by
    intro char other small member
    rw [if_neg other, List.mem_singleton] at member
    subst member
    have differs : char.toLower ≠ 'Σ' := by
      intro equal
      have code : char.toLower.toNat = 931 := by
        rw [equal]
        decide
      rcases toNat_toLower char with same | ⟨-, -, low⟩
      · exact other (Char.toNat_inj.mp (same.symm.trans code))
      · omega
    refine ⟨differs, ?_⟩
    rw [if_neg differs, toLower_toLower]
  lower_sigma := by decide
  lower_finalSigma := by decide
  lower_visible := by
    intro char visible small member
    split at member
    · rw [List.mem_singleton] at member
      subst member
      decide
    · rw [List.mem_singleton] at member
      subst member
      rcases toNat_toLower char with same | ⟨-, low, high⟩
      · rwa [Char.toNat_inj.mp same]
      · simp only [isWhitespace]
        simp
        omega

/-! ## Trimming and splitting -/

/-- Drop the white space at the start. -/
def trimStart (text : String) : String :=
  String.ofList (text.toList.dropWhile isWhitespace)

/-- Drop the white space at both ends. -/
def trim (text : String) : String :=
  String.ofList (((text.toList.dropWhile isWhitespace).reverse.dropWhile isWhitespace).reverse)

/-- Neither end of the text is white space. -/
def Trimmed (chars : List Char) : Prop :=
  (∀ char, chars.head? = some char → isWhitespace char = false) ∧
    ∀ char, chars.getLast? = some char → isWhitespace char = false

private theorem head_dropWhile {chars : List Char} {char : Char}
    (isHead : (chars.dropWhile isWhitespace).head? = some char) :
    isWhitespace char = false := by
  have stops := List.head?_dropWhile_not isWhitespace chars
  rw [isHead] at stops
  simpa using stops

theorem trimmed_trim (text : String) : Trimmed (trim text).toList := by
  rw [trim, String.toList_ofList]
  refine ⟨?_, ?_⟩
  · intro char isHead
    obtain ⟨front, whole⟩ := List.dropWhile_suffix
      (l := (text.toList.dropWhile isWhitespace).reverse) isWhitespace
    rw [List.head?_reverse] at isHead
    have some : (text.toList.dropWhile isWhitespace).reverse.dropWhile
        isWhitespace ≠ [] := by
      intro empty
      rw [empty] at isHead
      cases isHead
    have first := List.getLast?_append_of_ne_nil front some
    rw [whole, List.getLast?_reverse, isHead] at first
    exact head_dropWhile first
  · intro char isLast
    rw [List.getLast?_reverse] at isLast
    exact head_dropWhile isLast

private theorem dropWhile_of_head {chars : List Char}
    (visible : ∀ char, chars.head? = some char → isWhitespace char = false) :
    chars.dropWhile isWhitespace = chars := by
  cases chars with
  | nil => rfl
  | cons first rest =>
      rw [List.dropWhile_cons, visible first rfl]
      rfl

theorem trim_of_trimmed {text : String} (trimmed : Trimmed text.toList) :
    trim text = text := by
  have last : ∀ char, text.toList.reverse.head? = some char →
      isWhitespace char = false := by
    intro char isLast
    rw [List.head?_reverse] at isLast
    exact trimmed.2 char isLast
  rw [trim, dropWhile_of_head trimmed.1, dropWhile_of_head last,
    List.reverse_reverse, String.ofList_toList]

/-- The words of a list of characters, given the word being read. -/
def wordsFrom (word : List Char) : List Char → List String
  | [] => if word.isEmpty then [] else [String.ofList word.reverse]
  | char :: rest =>
      if isWhitespace char then
        if word.isEmpty then wordsFrom [] rest
        else String.ofList word.reverse :: wordsFrom [] rest
      else wordsFrom (char :: word) rest

/-- The maximal parts of a text without white space. -/
def splitWhitespace (text : String) : List String :=
  wordsFrom [] text.toList

/-- Texts put together with a separator between neighbours. -/
def joinWith (separator : String) : List String → String
  | [] => ""
  | [text] => text
  | text :: rest => text ++ separator ++ joinWith separator rest

/-- The text without its first character. -/
def dropFirst (text : String) : String :=
  String.ofList (text.toList.drop 1)

def startsWithChar (char : Char) (text : String) : Bool :=
  text.toList.head? == some char

/-! ## Case -/

section Case

variable [UnicodeTables]

/-- Whether the first character that is not case-ignorable is cased. -/
def caseIgnorableThenCased (chars : List Char) : Bool :=
  match chars.dropWhile UnicodeTables.caseIgnorable with
  | [] => false
  | char :: _ => UnicodeTables.cased char

/-- The lowercase of a capital sigma, by what stands around it. -/
def mapUppercaseSigma (before after : List Char) : Char :=
  if caseIgnorableThenCased before && !caseIgnorableThenCased after then
    'ς'
  else 'σ'

/-- Lowercase a list of characters; `before` is what precedes it, reversed. -/
def lowerFrom (before : List Char) : List Char → List Char
  | [] => []
  | char :: rest =>
      (if char = 'Σ' then [mapUppercaseSigma before rest]
        else UnicodeTables.lower char) ++
        lowerFrom (char :: before) rest

/-- The lowercase of a text. -/
def toLowercase (text : String) : String :=
  String.ofList (lowerFrom [] text.toList)

/-- The character is its own lowercase. -/
def LowerSettled (char : Char) : Prop :=
  char ≠ 'Σ' ∧ UnicodeTables.lower char = [char]

theorem settled_sigma (before after : List Char) :
    LowerSettled (mapUppercaseSigma before after) := by
  rw [mapUppercaseSigma]
  split
  · exact ⟨by decide, UnicodeTables.lower_finalSigma⟩
  · exact ⟨by decide, UnicodeTables.lower_sigma⟩

theorem settled_lowerFrom (before chars : List Char) :
    ∀ char ∈ lowerFrom before chars, LowerSettled char := by
  induction chars generalizing before with
  | nil =>
      intro char among
      cases among
  | cons first rest ih =>
      intro char among
      rw [lowerFrom] at among
      rcases List.mem_append.mp among with here | later
      · split at here
        · rw [List.mem_singleton.mp here]
          exact settled_sigma before rest
        · rename_i other
          exact UnicodeTables.lower_settled first other char here
      · exact ih (first :: before) char later

theorem lowerFrom_of_settled {chars : List Char}
    (settled : ∀ char ∈ chars, LowerSettled char) (before : List Char) :
    lowerFrom before chars = chars := by
  induction chars generalizing before with
  | nil => rfl
  | cons first rest ih =>
      have here := settled first List.mem_cons_self
      have later := ih
        (fun char among => settled char (List.mem_cons_of_mem first among))
        (first :: before)
      rw [lowerFrom, if_neg here.1, here.2, later, List.singleton_append]

/-- A lowercase text stays as it is. -/
theorem toLowercase_toLowercase (text : String) :
    toLowercase (toLowercase text) = toLowercase text := by
  simp only [toLowercase, String.toList_ofList]
  rw [lowerFrom_of_settled (settled_lowerFrom [] text.toList)]

private theorem lowered_ne_nil (before after : List Char) (char : Char) :
    (if char = 'Σ' then [mapUppercaseSigma before after]
      else UnicodeTables.lower char) ≠ [] := by
  split
  · exact List.cons_ne_nil _ _
  · exact UnicodeTables.lower_ne_nil char

private theorem lowered_visible (before after : List Char) {char : Char}
    (visible : isWhitespace char = false) :
    ∀ small ∈ (if char = 'Σ' then [mapUppercaseSigma before after]
      else UnicodeTables.lower char), isWhitespace small = false := by
  intro small among
  split at among
  · rw [List.mem_singleton.mp among, mapUppercaseSigma]
    split
    · decide
    · decide
  · exact UnicodeTables.lower_visible char visible small among

private theorem lastVisible_lowerFrom {chars : List Char}
    (visible : ∀ char, chars.getLast? = some char →
      isWhitespace char = false) (before : List Char) :
    ∀ small, (lowerFrom before chars).getLast? = some small →
      isWhitespace small = false := by
  induction chars generalizing before with
  | nil =>
      intro small isLast
      cases isLast
  | cons first rest ih =>
      intro small isLast
      rw [lowerFrom] at isLast
      cases rest with
      | nil =>
          rw [lowerFrom, List.append_nil] at isLast
          exact lowered_visible before [] (visible first rfl) small
            (List.mem_of_getLast? isLast)
      | cons next others =>
          have some : lowerFrom (first :: before) (next :: others) ≠ [] := by
            rw [lowerFrom]
            intro empty
            exact lowered_ne_nil (first :: before) others next
              (List.append_eq_nil_iff.mp empty).1
          rw [List.getLast?_append_of_ne_nil _ some] at isLast
          apply ih _ (first :: before) small isLast
          intro char isChar
          exact visible char (by rw [List.getLast?_cons_cons]; exact isChar)

theorem trimmed_lowerFrom {chars : List Char} (trimmed : Trimmed chars)
    (before : List Char) : Trimmed (lowerFrom before chars) := by
  refine ⟨?_, lastVisible_lowerFrom trimmed.2 before⟩
  cases chars with
  | nil => exact trimmed.1
  | cons first rest =>
      intro char isHead
      rw [lowerFrom,
        List.head?_append_of_ne_nil _ (lowered_ne_nil before rest first)]
        at isHead
      exact lowered_visible before rest (trimmed.1 first rfl) char
        (List.mem_of_mem_head? isHead)

/-- A name that was trimmed and lowercased stays as it is. -/
theorem toLowercase_trim_idempotent (text : String) :
    toLowercase (trim (toLowercase (trim text))) =
      toLowercase (trim text) := by
  have trimmed : Trimmed (toLowercase (trim text)).toList := by
    rw [toLowercase, String.toList_ofList]
    exact trimmed_lowerFrom (trimmed_trim text) []
  rw [trim_of_trimmed trimmed, toLowercase_toLowercase]

end Case

/-- Equality up to the case of ASCII letters. -/
def eqIgnoreAsciiCase (left right : String) : Bool :=
  left.toList.map Char.toLower == right.toList.map Char.toLower

end Ratspeak.Library
