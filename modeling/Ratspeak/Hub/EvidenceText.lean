import Ratspeak.Hub.Turn
import Ratspeak.Library.Tallies

/-!
# Texts of the moderation evidence

The nickname and the excerpt of a record are collapsed to one line without
control characters and without the presentation controls, and clipped to a
number of bytes.  The outcome is settled: it is its own outcome.
-/

namespace Ratspeak.Hub

open Ratspeak.Library (isWhitespace isControl)
open Ratspeak.Library.Tally (totalSize totalSize_cons totalSize_append)

/-- The formatting controls for direction and of no width. -/
def isPresentationControl (char : Char) : Bool :=
  let code := char.toNat
  code == 0x061c || (0x200b ≤ code && code ≤ 0x200f) ||
    (0x202a ≤ code && code ≤ 0x202e) || (0x2060 ≤ code && code ≤ 0x206f) ||
    code == 0xfeff

/-- The loop of `bounded_evidence_text`, from the characters that are kept so
far and whether a blank is pending. -/
def collapse (sanitized : List Char) (pendingSpace : Bool) :
    List Char → List Char
  | [] => sanitized
  | char :: rest =>
      if isWhitespace char then collapse sanitized (!sanitized.isEmpty) rest
      else if isControl char || isPresentationControl char then
        collapse sanitized pendingSpace rest
      else if pendingSpace then collapse (sanitized ++ [' ', char]) false rest
      else collapse (sanitized ++ [char]) false rest

def trimEnd (chars : List Char) : List Char :=
  (chars.reverse.dropWhile isWhitespace).reverse

def boundedEvidenceText (value : String) (maxBytes : Nat) :
    Option String :=
  if maxBytes = 0 then none
  else
    let sanitized := collapse [] false value.toList
    if sanitized.isEmpty then none
    else if (String.ofList sanitized).utf8ByteSize ≤ maxBytes then
      some (String.ofList sanitized)
    else
      let suffix := if '…'.utf8Size ≤ maxBytes then ['…'] else []
      let contentBudget :=
        if '…'.utf8Size ≤ maxBytes then maxBytes - '…'.utf8Size
        else maxBytes
      let clipped := trimEnd (clipChars contentBudget sanitized) ++ suffix
      if clipped.isEmpty then none else some (String.ofList clipped)

/-! ## Settled texts -/

/-- A character that the sanitiser keeps as it is. -/
def Plain (char : Char) : Prop :=
  isWhitespace char = false ∧ isControl char = false ∧ isPresentationControl char = false

/-- Plain characters with single blanks between them, where a blank may not
come first after another one. -/
def Spaced : Bool → List Char → Prop
  | _, [] => True
  | afterBlank, char :: rest =>
      (char = ' ' ∧ afterBlank = false ∧ Spaced true rest) ∨ (Plain char ∧ Spaced false rest)

def EndsPlain (chars : List Char) : Prop :=
  ∀ char, chars.getLast? = some char → isWhitespace char = false

theorem spaced_of_append {afterBlank : Bool} {front rest : List Char}
    (spaced : Spaced afterBlank (front ++ rest)) : Spaced afterBlank front := by
  induction front generalizing afterBlank with
  | nil => trivial
  | cons char front ih =>
      rcases spaced with ⟨blank, first, later⟩ | ⟨plain, later⟩
      · exact Or.inl ⟨blank, first, ih later⟩
      · exact Or.inr ⟨plain, ih later⟩

theorem spaced_append_plain {afterBlank : Bool} {front : List Char}
    {char : Char} (spaced : Spaced afterBlank front) (plain : Plain char) :
    Spaced afterBlank (front ++ [char]) := by
  induction front generalizing afterBlank with
  | nil => exact Or.inr ⟨plain, trivial⟩
  | cons first front ih =>
      rcases spaced with ⟨blank, isFirst, later⟩ | ⟨isPlain, later⟩
      · exact Or.inl ⟨blank, isFirst, ih later⟩
      · exact Or.inr ⟨isPlain, ih later⟩

theorem spaced_append_blank {afterBlank : Bool} {front : List Char}
    (spaced : Spaced afterBlank front) (some : front ≠ [])
    (ends : EndsPlain front) : Spaced afterBlank (front ++ [' ']) := by
  induction front generalizing afterBlank with
  | nil => exact absurd rfl some
  | cons first front ih =>
      cases front with
      | nil =>
          rcases spaced with ⟨blank, _, _⟩ | ⟨plain, _⟩
          · have visible := ends first rfl
            rw [blank] at visible
            exact absurd visible (by decide)
          · exact Or.inr ⟨plain, Or.inl ⟨rfl, rfl, trivial⟩⟩
      | cons second front =>
          have later : EndsPlain (second :: front) := by
            intro char isLast
            exact ends char (by rw [List.getLast?_cons_cons, isLast])
          rcases spaced with ⟨blank, isFirst, rest⟩ | ⟨plain, rest⟩
          · exact Or.inl ⟨blank, isFirst, ih rest (List.cons_ne_nil _ _) later⟩
          · exact Or.inr ⟨plain, ih rest (List.cons_ne_nil _ _) later⟩

theorem endsPlain_append_plain {front : List Char} {char : Char}
    (plain : Plain char) : EndsPlain (front ++ [char]) := by
  intro last isLast
  rw [List.getLast?_concat] at isLast
  cases isLast
  exact plain.1

/-- What the sanitiser makes is settled. -/
theorem collapse_spaced {sanitized : List Char} {pendingSpace : Bool}
    (spaced : Spaced true sanitized) (ends : EndsPlain sanitized)
    (pending : pendingSpace = true → sanitized ≠ []) (chars : List Char) :
    Spaced true (collapse sanitized pendingSpace chars) ∧
      EndsPlain (collapse sanitized pendingSpace chars) := by
  induction chars generalizing sanitized pendingSpace with
  | nil => exact ⟨spaced, ends⟩
  | cons char rest ih =>
      rw [collapse]
      by_cases space : isWhitespace char = true
      · rw [if_pos space]
        refine ih spaced ends ?_
        intro isPending empty
        rw [empty] at isPending
        cases isPending
      · rw [if_neg space]
        by_cases hidden : (isControl char || isPresentationControl char) = true
        · rw [if_pos hidden]
          exact ih spaced ends pending
        · rw [if_neg hidden]
          rw [Bool.or_eq_true, not_or] at hidden
          have plain : Plain char :=
            ⟨Bool.eq_false_iff.mpr space, Bool.eq_false_iff.mpr hidden.1,
              Bool.eq_false_iff.mpr hidden.2⟩
          by_cases isPending : pendingSpace = true
          · rw [if_pos isPending]
            have blank := spaced_append_blank spaced (pending isPending) ends
            have whole : sanitized ++ [' ', char] =
                sanitized ++ [' '] ++ [char] := by
              rw [List.append_assoc]
              rfl
            rw [whole]
            exact ih (spaced_append_plain blank plain) (endsPlain_append_plain plain) nofun
          · rw [if_neg isPending]
            exact ih (spaced_append_plain spaced plain) (endsPlain_append_plain plain) nofun

/-- The sanitiser keeps what is settled. -/
theorem collapse_of_spaced {sanitized : List Char} {pendingSpace : Bool}
    {chars : List Char} (spaced : Spaced (pendingSpace || sanitized.isEmpty) chars)
    (ends : EndsPlain chars) (more : pendingSpace = true → chars ≠ []) :
    collapse sanitized pendingSpace chars =
      sanitized ++ (if pendingSpace then [' '] else []) ++ chars := by
  induction chars generalizing sanitized pendingSpace with
  | nil =>
      cases pendingSpace with
      | false => simp [collapse]
      | true => exact absurd rfl (more rfl)
  | cons char rest ih =>
      have restEnds : EndsPlain rest := by
        intro last isLast
        cases rest with
        | nil => cases isLast
        | cons second rest => exact ends last (by rw [List.getLast?_cons_cons, isLast])
      rw [collapse]
      rcases spaced with ⟨blank, first, later⟩ | ⟨plain, later⟩
      · rw [Bool.or_eq_false_iff] at first
        have someRest : rest ≠ [] := by
          intro none
          have visible := ends char (by rw [none]; rfl)
          rw [blank] at visible
          exact absurd visible (by decide)
        rw [blank, if_pos (by decide), first.1, first.2]
        rw [ih (by simpa using later) restEnds
          (fun _ => someRest)]
        simp
      · obtain ⟨visible, notControl, notHidden⟩ := plain
        rw [if_neg (by simp [visible]), notControl, notHidden]
        cases pendingSpace with
        | false =>
            have filled : (sanitized ++ [char]).isEmpty = false := by
              cases sanitized <;> rfl
            rw [if_neg (by simp), if_neg (by simp)]
            rw [@ih (sanitized ++ [char]) false
              (by rw [filled]; exact later) restEnds
              nofun]
            simp
        | true =>
            have filled : (sanitized ++ [' ', char]).isEmpty = false := by
              cases sanitized <;> rfl
            rw [if_neg (by simp), if_pos rfl]
            rw [@ih (sanitized ++ [' ', char]) false
              (by rw [filled]; exact later) restEnds
              nofun]
            simp

theorem collapse_settled {chars : List Char} (spaced : Spaced true chars)
    (ends : EndsPlain chars) : collapse [] false chars = chars := by
  rw [@collapse_of_spaced [] false chars spaced ends nofun]
  simp

/-! ## Clipping -/

theorem utf8ByteSize_ofList (chars : List Char) :
    (String.ofList chars).utf8ByteSize = totalSize Char.utf8Size chars := by
  induction chars with
  | nil => rfl
  | cons char rest ih =>
      rw [String.ofList_cons, String.utf8ByteSize_append,
        String.utf8ByteSize_singleton, ih, totalSize_cons]

/-- Clipping keeps a prefix within the number of bytes. -/
theorem clipChars_prefix (budget : Nat) (chars : List Char) :
    ∃ rest, chars = clipChars budget chars ++ rest ∧
      totalSize Char.utf8Size (clipChars budget chars) ≤ budget := by
  induction chars generalizing budget with
  | nil => exact ⟨[], rfl, Nat.zero_le _⟩
  | cons char chars ih =>
      rw [clipChars]
      by_cases fits : char.utf8Size ≤ budget
      · rw [if_pos fits]
        obtain ⟨rest, whole, within⟩ :=
          ih (budget - char.utf8Size)
        refine ⟨rest, ?_, ?_⟩
        · rw [List.cons_append, ← whole]
        · rw [totalSize_cons]
          omega
      · rw [if_neg fits]
        exact ⟨char :: chars, rfl, Nat.zero_le _⟩

/-- Trimming keeps a prefix that ends with no white space. -/
theorem trimEnd_prefix (chars : List Char) :
    EndsPlain (trimEnd chars) ∧ ∃ rest, chars = trimEnd chars ++ rest := by
  refine ⟨?_, ?_⟩
  · intro char isLast
    rw [trimEnd, List.getLast?_reverse] at isLast
    have stops := List.head?_dropWhile_not isWhitespace chars.reverse
    rw [isLast] at stops
    simpa using stops
  · obtain ⟨rest, whole⟩ :=
      List.dropWhile_suffix (l := chars.reverse) isWhitespace
    refine ⟨rest.reverse, ?_⟩
    rw [trimEnd, ← List.reverse_append, whole, List.reverse_reverse]

/-- What a text of the evidence promises to its reader. -/
structure SafeText (maxBytes : Nat) (text : String) : Prop where
  bounded : text.utf8ByteSize ≤ maxBytes
  visible : ∀ char ∈ text.toList, isControl char = false ∧ isPresentationControl char = false
  settled : boundedEvidenceText text maxBytes = some text

theorem spaced_visible {afterBlank : Bool} {chars : List Char}
    (spaced : Spaced afterBlank chars) :
    ∀ char ∈ chars, isControl char = false ∧
      isPresentationControl char = false := by
  induction chars generalizing afterBlank with
  | nil =>
      intro char impossible
      cases impossible
  | cons first rest ih =>
      intro char among
      rcases spaced with ⟨blank, _, later⟩ | ⟨plain, later⟩
      · rcases List.mem_cons.mp among with isFirst | inRest
        · rw [isFirst, blank]
          decide
        · exact ih later char inRest
      · rcases List.mem_cons.mp among with isFirst | inRest
        · rw [isFirst]
          exact plain.2
        · exact ih later char inRest

theorem safeText_of_spaced {maxBytes : Nat} {chars : List Char}
    (spaced : Spaced true chars) (ends : EndsPlain chars) (some : chars ≠ [])
    (within : totalSize Char.utf8Size chars ≤ maxBytes) :
    SafeText maxBytes (String.ofList chars) := by
  have size := utf8ByteSize_ofList chars
  refine ⟨by rw [size]; exact within, ?_, ?_⟩
  · rw [String.toList_ofList]
    exact spaced_visible spaced
  · have positive : maxBytes ≠ 0 := by
      intro zero
      cases chars with
      | nil => exact some rfl
      | cons char rest =>
          have one := char.utf8Size_pos
          rw [totalSize_cons] at within
          omega
    unfold boundedEvidenceText
    rw [if_neg positive, String.toList_ofList, collapse_settled spaced ends]
    dsimp only
    rw [if_neg (by simpa using some), if_pos (by rw [size]; exact within)]

theorem clipped_safe {sanitized suffix : List Char} {budget maxBytes : Nat}
    (spaced : Spaced true sanitized) (isSuffix : suffix = [] ∨ suffix = ['…'])
    (room : budget + totalSize Char.utf8Size suffix ≤ maxBytes)
    (some : trimEnd (clipChars budget sanitized) ++ suffix ≠ []) :
    SafeText maxBytes
      (String.ofList (trimEnd (clipChars budget sanitized) ++ suffix)) := by
  obtain ⟨ends, cut, trimmed⟩ := trimEnd_prefix (clipChars budget sanitized)
  obtain ⟨rest, whole, within⟩ := clipChars_prefix budget sanitized
  rw [trimmed] at whole
  rw [whole, List.append_assoc] at spaced
  rw [trimmed, totalSize_append] at within
  have content := spaced_of_append spaced
  have plain : Plain '…' := by
    unfold Plain
    decide
  refine safeText_of_spaced ?_ ?_ some ?_
  · rcases isSuffix with none | ellipsis
    · rw [none, List.append_nil]
      exact content
    · rw [ellipsis]
      exact spaced_append_plain content plain
  · rcases isSuffix with none | ellipsis
    · rw [none, List.append_nil]
      exact ends
    · rw [ellipsis]
      exact endsPlain_append_plain plain
  · rw [totalSize_append]
    omega

/-- Every text that the sanitiser gives is safe. -/
theorem boundedEvidenceText_safe {value text : String} {maxBytes : Nat}
    (given : boundedEvidenceText value maxBytes = some text) :
    SafeText maxBytes text := by
  have start : Spaced true [] := trivial
  have startEnds : EndsPlain [] := by
    intro char impossible
    cases impossible
  obtain ⟨spaced, ends⟩ := @collapse_spaced [] false start startEnds nofun value.toList
  unfold boundedEvidenceText at given
  by_cases zero : maxBytes = 0
  · rw [if_pos zero] at given
    cases given
  · rw [if_neg zero] at given
    generalize collapse [] false value.toList = sanitized at spaced ends given
    dsimp only at given
    by_cases none : sanitized.isEmpty = true
    · rw [if_pos none] at given
      cases given
    · rw [if_neg none] at given
      by_cases fits : (String.ofList sanitized).utf8ByteSize ≤ maxBytes
      · rw [if_pos fits] at given
        cases given
        rw [utf8ByteSize_ofList] at fits
        exact safeText_of_spaced spaced ends (by simpa using none) fits
      · rw [if_neg fits] at given
        by_cases room : '…'.utf8Size ≤ maxBytes
        · have whole : maxBytes - '…'.utf8Size +
              totalSize Char.utf8Size ['…'] ≤ maxBytes :=
            Nat.le_of_eq (Nat.sub_add_cancel room)
          rw [if_pos room, if_pos room, if_neg (by simp)] at given
          cases given
          exact clipped_safe spaced (Or.inr rfl) whole (by simp)
        · rw [if_neg room, if_neg room] at given
          by_cases empty : (trimEnd (clipChars maxBytes sanitized) ++ []).isEmpty = true
          · rw [if_pos empty] at given
            cases given
          · rw [if_neg empty] at given
            cases given
            exact clipped_safe spaced (Or.inl rfl) (Nat.le_refl _) (by simpa using empty)

end Ratspeak.Hub
