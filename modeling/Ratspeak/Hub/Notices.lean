import Ratspeak.Hub.Coherence
import Ratspeak.Hub.EvidenceText

/-!
# Notices in several packets

The entries of a notice are packed whole, in order, as long as they fit beside
its lead.  An entry that is too long for that is split between characters.
A lead for the first notice is lost when it does not fit beside the first
entry.
-/

namespace Ratspeak.Hub

open Ratspeak.Library

/-! ## Pieces of a text -/

theorem joinWith_none_cons (text : String) (rest : List String) :
    joinWith "" (text :: rest) = text ++ joinWith "" rest := by
  cases rest with
  | nil => rw [joinWith, joinWith, String.append_empty]
  | cons next more =>
      rw [joinWith, String.append_empty]
      intro impossible
      cases impossible

theorem joinWith_concat (separator : String) {texts : List String}
    (some : texts ≠ []) (last : String) :
    joinWith separator (texts ++ [last]) =
      joinWith separator texts ++ (separator ++ last) := by
  induction texts with
  | nil => exact absurd rfl some
  | cons text texts ih =>
      cases texts with
      | nil =>
          change text ++ separator ++ last = text ++ (separator ++ last)
          rw [String.append_assoc]
      | cons next more =>
          have later := ih (List.cons_ne_nil next more)
          change text ++ separator ++ joinWith separator
              ((next :: more) ++ [last]) =
            text ++ separator ++ joinWith separator (next :: more) ++ (separator ++ last)
          rw [later, @String.append_assoc (text ++ separator)]

/-- The bytes of texts that each have a separator. -/
def weigh (separator : String) (texts : List String) : Nat :=
  (texts.map fun text => text.utf8ByteSize + separator.utf8ByteSize).sum

@[simp]
theorem weigh_nil (separator : String) : weigh separator [] = 0 :=
  rfl

@[simp]
theorem weigh_cons (separator text : String) (texts : List String) :
    weigh separator (text :: texts) =
      text.utf8ByteSize + separator.utf8ByteSize + weigh separator texts :=
  rfl

@[simp]
theorem weigh_append (separator : String) (first second : List String) :
    weigh separator (first ++ second) =
      weigh separator first + weigh separator second := by
  rw [weigh, List.map_append, List.sum_append]
  rfl

theorem weigh_eq_joinWith (separator : String) {texts : List String} (some : texts ≠ []) :
    weigh separator texts =
      (joinWith separator texts).utf8ByteSize + separator.utf8ByteSize := by
  induction texts with
  | nil => exact absurd rfl some
  | cons text rest ih =>
      cases rest with
      | nil => rfl
      | cons next more =>
          rw [weigh_cons, ih (List.cons_ne_nil next more)]
          change _ = (text ++ separator ++ joinWith separator (next :: more)).utf8ByteSize + _
          rw [String.utf8ByteSize_append, String.utf8ByteSize_append]
          omega

theorem weigh_eq_length (separator : String) (texts : List String) :
    weigh separator texts = (joinWith "" texts).utf8ByteSize +
      texts.length * separator.utf8ByteSize := by
  induction texts with
  | nil => simp [joinWith]
  | cons text rest ih =>
      rw [weigh_cons, ih, joinWith_none_cons,
        String.utf8ByteSize_append, List.length_cons, Nat.add_one_mul]
      omega

/-- A text is not longer than what it is put together to. -/
theorem utf8ByteSize_le_joinWith (separator : String) {texts : List String}
    {text : String} (among : text ∈ texts) :
    text.utf8ByteSize ≤ (joinWith separator texts).utf8ByteSize := by
  have whole := weigh_eq_joinWith separator (List.ne_nil_of_mem among)
  obtain ⟨before, after, rfl⟩ := List.append_of_mem among
  rw [weigh_append, weigh_cons] at whole
  omega

theorem singleton_append_ofList (char : Char) (chars : List Char) :
    String.singleton char ++ String.ofList chars =
      String.ofList (char :: chars) := by
  rw [String.ofList_cons]

/-- The pieces give the text back, none of them is empty, and each of them is
within a number of bytes that takes each character. -/
theorem chunkTextFrom_spec (maxBytes : Nat) (current : String) (chars : List Char) :
    joinWith "" (chunkTextFrom maxBytes current chars) =
        current ++ String.ofList chars ∧
      (∀ piece ∈ chunkTextFrom maxBytes current chars, piece ≠ "") ∧
      ((∀ char ∈ chars, char.utf8Size ≤ maxBytes) →
        current.utf8ByteSize ≤ maxBytes → ∀ piece ∈ chunkTextFrom maxBytes current chars,
          piece.utf8ByteSize ≤ maxBytes) := by
  induction chars generalizing current with
  | nil =>
      rw [chunkTextFrom]
      by_cases empty : current.isEmpty = true
      · rw [if_pos empty]
        have nothing : current = "" := String.isEmpty_iff.mp empty
        rw [nothing]
        exact ⟨rfl, by simp, by simp⟩
      · rw [if_neg empty]
        have some : current ≠ "" := mt String.isEmpty_iff.mpr empty
        refine ⟨?_, ?_, ?_⟩
        · rw [joinWith, String.ofList_nil, String.append_empty]
        · intro piece isPiece
          rw [List.mem_singleton.mp isPiece]
          exact some
        · intro _ small piece isPiece
          rw [List.mem_singleton.mp isPiece]
          exact small
  | cons char rest ih =>
      rw [chunkTextFrom]
      by_cases full : maxBytes < current.utf8ByteSize + char.utf8Size ∧ ¬current.isEmpty = true
      · rw [if_pos full]
        obtain ⟨whole, filled, small⟩ :=
          ih (String.singleton char)
        refine ⟨?_, ?_, ?_⟩
        · rw [joinWith_none_cons, whole, singleton_append_ofList]
        · intro piece isPiece
          rcases List.mem_cons.mp isPiece with isCurrent | later
          · rw [isCurrent]
            exact mt String.isEmpty_iff.mpr full.2
          · exact filled piece later
        · intro room within piece isPiece
          rcases List.mem_cons.mp isPiece with isCurrent | later
          · rw [isCurrent]
            exact within
          · refine small (List.forall_mem_cons.mp room).2 ?_ piece later
            rw [String.utf8ByteSize_singleton]
            exact (List.forall_mem_cons.mp room).1
      · rw [if_neg full]
        obtain ⟨whole, filled, small⟩ := ih (current.push char)
        refine ⟨?_, filled, ?_⟩
        · rw [whole, ← String.append_singleton, String.append_assoc, singleton_append_ofList]
        · intro room within
          obtain ⟨width, later⟩ := List.forall_mem_cons.mp room
          refine small later ?_
          rw [String.utf8ByteSize_push]
          by_cases empty : current.isEmpty = true
          · rw [String.isEmpty_iff.mp empty, String.utf8ByteSize_empty]
            omega
          · have fits : ¬maxBytes < current.utf8ByteSize + char.utf8Size :=
              fun beyond => full ⟨beyond, empty⟩
            omega

/-- What the pieces of a text are. -/
theorem chunkText_spec (text : String) (maxBytes : Nat) :
    joinWith "" (chunkText text maxBytes) = text ∧
      (∀ piece ∈ chunkText text maxBytes, piece ≠ "") ∧
      ((∀ char ∈ text.toList, char.utf8Size ≤ maxBytes) →
        ∀ piece ∈ chunkText text maxBytes,
          piece.utf8ByteSize ≤ maxBytes) := by
  obtain ⟨whole, filled, small⟩ := chunkTextFrom_spec maxBytes "" text.toList
  refine ⟨?_, filled, fun room => small room (Nat.zero_le _)⟩
  rw [chunkText, whole, String.empty_append, String.ofList_toList]

/-! ## Packing -/

/-- What a notice holds besides its lead. -/
inductive NoticeContent where
  | entries (texts : List String)
  | piece (text : String)

def NoticeContent.body (separator : String) : NoticeContent → String
  | entries texts => joinWith separator texts
  | piece text => text

/-- The contents hold the entries in order: several whole ones in a notice, or
one that is oversized in several notices. -/
inductive Covers (oversized : String → Prop) :
    List String → List NoticeContent → Prop where
  | nil : Covers oversized [] []
  | entries {texts rest : List String} {contents : List NoticeContent} :
      texts ≠ [] → Covers oversized rest contents →
      Covers oversized (texts ++ rest) (.entries texts :: contents)
  | pieces {entry : String} {pieces rest : List String}
      {contents : List NoticeContent} :
      oversized entry → joinWith "" pieces = entry →
      (∀ piece ∈ pieces, piece ≠ "") → Covers oversized rest contents →
      Covers oversized (entry :: rest) (pieces.map NoticeContent.piece ++ contents)

/-- The texts of notices: the first one starts with the opening and each later
one with what is repeated. -/
def spellNotices (separator repeated : String) :
    String → List NoticeContent → List String
  | _, [] => []
  | opening, content :: rest =>
      (opening ++ content.body separator) :: spellNotices separator repeated repeated rest

theorem spellNotices_append (separator repeated : String) (first second : List NoticeContent) :
    spellNotices separator repeated repeated (first ++ second) =
      spellNotices separator repeated repeated first ++
        spellNotices separator repeated repeated second := by
  induction first with
  | nil => rfl
  | cons content first ih =>
      rw [List.cons_append, spellNotices, ih, spellNotices]
      rfl

theorem spellNotices_pieces (separator repeated : String) (pieces : List String) :
    spellNotices separator repeated repeated
        (pieces.map NoticeContent.piece) =
      pieces.map fun piece => repeated ++ piece := by
  induction pieces with
  | nil => rfl
  | cons piece pieces ih =>
      rw [List.map_cons, spellNotices, ih]
      rfl

/-- An entry does not fit a notice beside the lead that is repeated. -/
def Oversized (budget : Nat) (header : NoticeHeader) (entry : String) :
    Prop :=
  budget < header.repeated.utf8ByteSize + entry.utf8ByteSize

/-- Each character of an entry that is cut fits beside the lead. -/
def CutsFit (budget : Nat) (header : NoticeHeader) (entries : List String) :
    Prop :=
  ∀ entry ∈ entries, Oversized budget header entry →
    ∀ char ∈ entry.toList, header.repeated.utf8ByteSize + char.utf8Size ≤ budget

/-- What the texts of a notice are, when it was begun with some entries after
an opening. -/
structure Packed (budget : Nat) (header : NoticeHeader) (separator : String)
    (opening : String) (begun entries : List String) (texts : List String) :
    Prop where
  spelled : ∃ contents actual,
    texts = spellNotices separator header.repeated actual contents ∧
      Covers (Oversized budget header) (begun ++ entries) contents ∧
      (actual = opening ∨ actual = header.repeated) ∧
      ((∀ entry rest, begun ++ entries = entry :: rest →
          opening.utf8ByteSize + entry.utf8ByteSize ≤ budget) →
        actual = opening)
  bounded : CutsFit budget header entries → ∀ text ∈ texts, text.utf8ByteSize ≤ budget

variable {budget : Nat} {header : NoticeHeader} {separator : String}

/-- A notice with entries is complete where the next one starts. -/
theorem Packed.flush {opening : String} {begun entries : List String}
    {texts : List String} (some : begun ≠ [])
    (fits : (opening ++ joinWith separator begun).utf8ByteSize ≤ budget)
    (later : Packed budget header separator header.repeated [] entries texts) :
    Packed budget header separator opening begun entries
      ((opening ++ joinWith separator begun) :: texts) := by
  obtain ⟨contents, actual, spelled, covers, either, _⟩ := later.spelled
  have isRepeated : actual = header.repeated := either.elim id id
  refine ⟨⟨.entries begun :: contents, opening, ?_, .entries some covers,
    Or.inl rfl, fun _ => rfl⟩, ?_⟩
  · rw [spelled, isRepeated]
    rfl
  · intro room text among
    rcases List.mem_cons.mp among with isFirst | inRest
    · rw [isFirst]
      exact fits
    · exact later.bounded room text inRest

/-- An entry that does not fit is cut into pieces. -/
theorem Packed.cut {entry : String} {entries texts : List String}
    (oversized : Oversized budget header entry)
    (later : Packed budget header separator header.repeated [] entries texts) :
    Packed budget header separator header.repeated [] (entry :: entries)
      ((chunkText entry
          (max (budget - header.repeated.utf8ByteSize) 1)).map
        (fun piece => header.repeated ++ piece) ++ texts) := by
  obtain ⟨contents, actual, spelled, covers, either, _⟩ := later.spelled
  have isRepeated : actual = header.repeated := either.elim id id
  obtain ⟨whole, filled, small⟩ := chunkText_spec entry
    (max (budget - header.repeated.utf8ByteSize) 1)
  generalize chunkText entry (max (budget - header.repeated.utf8ByteSize) 1) =
    pieces at whole filled small ⊢
  refine ⟨⟨pieces.map NoticeContent.piece ++ contents, header.repeated, ?_,
    .pieces oversized whole filled covers, Or.inl rfl, fun _ => rfl⟩, ?_⟩
  · rw [spelled, isRepeated, spellNotices_append, spellNotices_pieces]
  · intro room text among
    rcases List.mem_append.mp among with isPiece | inRest
    · obtain ⟨piece, inPieces, same⟩ := List.mem_map.mp isPiece
      obtain ⟨cut, _⟩ := List.forall_mem_cons.mp room
      have width := small (fun char among => by
        have fits := cut oversized char among
        omega) piece inPieces
      have some : entry.toList ≠ [] := by
        intro none
        have part := utf8ByteSize_le_joinWith "" inPieces
        rw [whole, String.toList_eq_nil_iff.mp none] at part
        exact filled piece inPieces (String.utf8ByteSize_eq_zero_iff.mp (Nat.le_zero.mp part))
      obtain ⟨char, among⟩ := List.exists_mem_of_ne_nil _ some
      have fits := cut oversized char among
      have positive := char.utf8Size_pos
      rw [← same, String.utf8ByteSize_append]
      omega
    · exact later.bounded (List.forall_mem_cons.mp room).2 text inRest

theorem packEntries_packed (opening : String) (begun entries : List String)
    (hasEntry : Bool) (current : String) (started : hasEntry = !begun.isEmpty)
    (so : current = opening ++ joinWith separator begun)
    (within : begun ≠ [] → current.utf8ByteSize ≤ budget) :
    Packed budget header separator opening begun entries
      (packEntries budget header separator current hasEntry entries) := by
  induction entries generalizing opening begun hasEntry current with
  | nil =>
      rw [packEntries]
      cases begun with
      | nil =>
          rw [started]
          refine ⟨⟨[], opening, rfl, .nil, Or.inl rfl, fun _ => rfl⟩, ?_⟩
          intro _ text impossible
          cases impossible
      | cons first more =>
          have some : first :: more ≠ [] := List.cons_ne_nil first more
          have nothing : Packed budget header separator header.repeated []
              [] [] := by
            refine ⟨⟨[], header.repeated, rfl, .nil, Or.inl rfl, fun _ => rfl⟩, ?_⟩
            intro _ text impossible
            cases impossible
          rw [started, so]
          rw [so] at within
          exact nothing.flush some (within some)
  | cons entry rest ih =>
      have grown : current ++ (if hasEntry then separator ++ entry else entry) =
          opening ++ joinWith separator (begun ++ [entry]) := by
        cases begun with
        | nil =>
            rw [started, so]
            change opening ++ "" ++ entry = opening ++ entry
            rw [String.append_empty]
        | cons first more =>
            rw [started, so, joinWith_concat separator (List.cons_ne_nil first more) entry]
            change opening ++ joinWith separator (first :: more) ++ (separator ++ entry) = _
            rw [String.append_assoc]
      have moved : begun ++ entry :: rest = (begun ++ [entry]) ++ rest := by
        rw [List.append_assoc]
        rfl
      rw [packEntries]
      dsimp only
      by_cases fits : current.utf8ByteSize +
          (if hasEntry then separator ++ entry else entry).utf8ByteSize ≤ budget
      · rw [if_pos fits, grown]
        rw [← String.utf8ByteSize_append, grown] at fits
        have packed := ih opening (begun ++ [entry]) true _ (by simp) rfl (fun _ => fits)
        obtain ⟨contents, actual, spelled, covers, either, opens⟩ :=
          packed.spelled
        rw [← moved] at covers opens
        exact ⟨⟨contents, actual, spelled, covers, either, opens⟩,
          fun room => packed.bounded (List.forall_mem_cons.mp room).2⟩
      · rw [if_neg fits]
        -- What follows a notice that is complete, or a lead that is left out.
        have follows : ∀ texts, Packed budget header separator
            header.repeated [] (entry :: rest) texts →
            Packed budget header separator opening begun (entry :: rest)
              ((if hasEntry then [current] else []) ++ texts) := by
          intro texts later
          cases begun with
          | nil =>
              obtain ⟨contents, actual, spelled, covers, either, _⟩ :=
                later.spelled
              have isRepeated : actual = header.repeated := either.elim id id
              rw [started]
              refine ⟨⟨contents, actual, spelled, covers, Or.inr isRepeated, ?_⟩, later.bounded⟩
              intro firstFits
              have beside := firstFits entry rest rfl
              rw [started, so] at fits
              change ¬(opening ++ "").utf8ByteSize + entry.utf8ByteSize ≤ budget at fits
              rw [String.append_empty] at fits
              exact absurd beside fits
          | cons first more =>
              have some : first :: more ≠ [] := List.cons_ne_nil first more
              rw [started, so]
              rw [so] at within
              exact later.flush some (within some)
        by_cases beside : header.repeated.utf8ByteSize + entry.utf8ByteSize ≤ budget
        · rw [if_pos beside]
          refine follows _ ?_
          have packed := ih header.repeated [entry] true
            (header.repeated ++ entry) rfl rfl
            (fun _ => by rw [String.utf8ByteSize_append]; exact beside)
          exact ⟨packed.spelled, fun room => packed.bounded (List.forall_mem_cons.mp room).2⟩
        · rw [if_neg beside, List.append_assoc]
          refine follows _ ?_
          have packed := ih header.repeated [] false
            header.repeated rfl (by rw [joinWith, String.append_empty])
            (fun impossible => absurd rfl impossible)
          exact packed.cut (Nat.lt_of_not_le beside)

/-! ## What the texts weigh -/

/-- A text that is continued needs one piece more than the characters that
follow. -/
theorem chunkTextFrom_length_le (maxBytes count : Nat) (current : String)
    (chars : List Char) (few : ∀ later, later <:+ chars →
      (chunkTextFrom maxBytes "" later).length ≤ count) :
    (chunkTextFrom maxBytes current chars).length ≤ count + 1 := by
  induction chars generalizing current with
  | nil =>
      rw [chunkTextFrom]
      split <;> simp
  | cons char rest ih =>
      rw [chunkTextFrom]
      split
      · have whole := few (char :: rest) (List.suffix_refl _)
        rw [chunkTextFrom, if_neg (fun full => full.2 rfl)] at whole
        exact Nat.succ_le_succ whole
      · exact ih _ fun later isLater =>
          few later (isLater.trans (List.suffix_cons char rest))

/-- Pieces of a text that are within the limit are not fewer than those that
are filled one after the other. -/
theorem chunkTextFrom_fewest (maxBytes : Nat) (pieces : List String) (chars : List Char)
    (suffix : chars <:+ (joinWith "" pieces).toList)
    (small : ∀ piece ∈ pieces, piece.utf8ByteSize ≤ maxBytes) :
    (chunkTextFrom maxBytes "" chars).length ≤ pieces.length := by
  induction pieces generalizing chars with
  | nil =>
      rw [List.suffix_nil.mp suffix]
      rfl
  | cons piece pieces ih =>
      obtain ⟨width, small⟩ := List.forall_mem_cons.mp small
      have fewer := fun later isLater =>
        ih later isLater small
      rw [joinWith_none_cons, String.toList_append] at suffix
      rw [List.length_cons]
      rcases List.suffix_or_suffix_of_suffix suffix
        (List.suffix_append _ _) with inside | beyond
      · exact Nat.le_succ_of_le (fewer chars inside)
      · obtain ⟨front, rfl⟩ := beyond
        have isPart := List.suffix_append_self_iff.mp suffix
        -- What is left of the first piece goes into one text.
        have fill : ∀ current : String,
            (current ++ String.ofList front).utf8ByteSize ≤ maxBytes →
            (chunkTextFrom maxBytes current
                (front ++ (joinWith "" pieces).toList)).length ≤
              pieces.length + 1 := by
          clear isPart suffix
          induction front with
          | nil =>
              intro current _
              exact chunkTextFrom_length_le maxBytes _ current _ fewer
          | cons char front continued =>
              intro current within
              rw [← singleton_append_ofList, ← String.append_assoc,
                String.append_singleton] at within
              have least := within
              rw [String.utf8ByteSize_append, String.utf8ByteSize_push] at least
              rw [List.cons_append, chunkTextFrom, if_neg (fun full => by omega)]
              exact continued _ within
        refine fill "" ?_
        obtain ⟨rest, whole⟩ := isPart
        have size := congrArg String.utf8ByteSize (congrArg String.ofList whole)
        rw [String.ofList_append, String.utf8ByteSize_append, String.ofList_toList] at size
        rw [String.empty_append]
        omega

/-- What an entry adds to the weight of notices without a lead. -/
def entryWeight (budget : Nat) (separator entry : String) : Nat :=
  weigh separator (if entry.utf8ByteSize ≤ budget then [entry] else chunkText entry budget)

/-- Notices that hold the entries weigh at least what the entries add. -/
theorem Covers.weigh_le {entries : List String} {contents : List NoticeContent}
    (covers : Covers (fun entry => budget < entry.utf8ByteSize) entries
      contents)
    (bounded : ∀ content ∈ contents, (content.body separator).utf8ByteSize ≤ budget) :
    (entries.map (entryWeight budget separator)).sum ≤
      weigh separator (contents.map (NoticeContent.body separator)) := by
  induction covers with
  | nil => exact Nat.le_refl 0
  | @entries texts rest contents some _ ih =>
      obtain ⟨within, bounded⟩ := List.forall_mem_cons.mp bounded
      have whole : ∀ text ∈ texts, entryWeight budget separator text =
          text.utf8ByteSize + separator.utf8ByteSize := by
        intro text among
        rw [entryWeight, if_pos (Nat.le_trans
          (utf8ByteSize_le_joinWith separator among) within)]
        rfl
      have weight := weigh_eq_joinWith separator some
      rw [List.map_append, List.sum_append, List.map_congr_left whole,
        List.map_cons, weigh_cons]
      exact Nat.add_le_add (Nat.le_of_eq weight) (ih bounded)
  | @pieces entry pieces rest contents oversized same _ _
      ih =>
      have small : ∀ piece ∈ pieces, piece.utf8ByteSize ≤ budget :=
        fun piece among => bounded (.piece piece)
          (List.mem_append_left _ (List.mem_map_of_mem among))
      have fewest := chunkTextFrom_fewest budget pieces entry.toList (by rw [same]) small
      have cut : entryWeight budget separator entry ≤
          weigh separator pieces := by
        rw [entryWeight, if_neg (Nat.not_le.mpr oversized), weigh_eq_length,
          weigh_eq_length separator pieces, (chunkText_spec entry budget).1,
          same]
        exact Nat.add_le_add_left (Nat.mul_le_mul_right _ fewest) _
      rw [List.map_cons, List.sum_cons, List.map_append, List.map_map, weigh_append]
      refine Nat.add_le_add ?_ (ih fun content among =>
        bounded content (List.mem_append_right _ among))
      refine Nat.le_trans cut (Nat.le_of_eq ?_)
      exact congrArg (weigh separator) (List.map_id pieces).symm

/-- Without a lead the texts weigh what the entries add. -/
theorem packEntries_weight (alone : header.repeated = "")
    (room : 1 ≤ budget) (current : String) (hasEntry : Bool)
    (begun : hasEntry = true ∨ current = "") (entries : List String) :
    weigh separator
        (packEntries budget header separator current hasEntry entries) =
      weigh separator (if hasEntry then [current] else []) +
        (entries.map (entryWeight budget separator)).sum := by
  induction entries generalizing current hasEntry with
  | nil =>
      rw [packEntries]
      rfl
  | cons entry rest ih =>
      rw [packEntries, List.map_cons, List.sum_cons, alone]
      dsimp only
      by_cases fits : current.utf8ByteSize +
          (if hasEntry then separator ++ entry else entry).utf8ByteSize ≤ budget
      · rw [if_pos fits, ih _ true (Or.inl rfl), if_pos rfl,
          entryWeight]
        cases hasEntry with
        | false =>
            have empty : current = "" :=
              begun.resolve_left Bool.false_ne_true
            subst empty
            have small : entry.utf8ByteSize ≤ budget := by simpa using fits
            simp [small]
        | true =>
            rw [if_pos rfl, String.utf8ByteSize_append] at fits
            have small : entry.utf8ByteSize ≤ budget := by omega
            simp [small]
            omega
      · rw [if_neg fits]
        by_cases small : entry.utf8ByteSize ≤ budget
        · rw [if_pos (by simpa using small), weigh_append,
            ih _ true (Or.inl rfl), entryWeight,
            if_pos small, String.empty_append, if_pos rfl]
        · have limit :
              max (budget - ("" : String).utf8ByteSize) 1 = budget := by
            rw [String.utf8ByteSize_empty]
            omega
          have plain : (fun piece : String => "" ++ piece) = id :=
            funext fun piece => String.empty_append
          rw [if_neg (by simpa using small), weigh_append, weigh_append,
            ih "" false (Or.inr rfl), entryWeight,
            if_neg small, limit, plain, List.map_id,
            if_neg Bool.false_ne_true, weigh_nil, Nat.zero_add, Nat.add_assoc]

/-! ## Notices that lose nothing -/

/-- The texts hold each entry in order, whole or, only when it is beyond the
budget by itself, in pieces.  The lead is where the header says, and the texts
are within the budget. -/
structure Lossless (budget : Nat) (header : NoticeHeader)
    (separator : String) (entries texts : List String) : Prop where
  spelled : ∃ contents,
    texts = spellNotices separator header.repeated header.lead contents ∧
      (Covers (fun entry => budget < entry.utf8ByteSize) entries contents ∨
        entries = [] ∧ contents = [.entries []]) ∧
      ∀ lead, header = .first lead → contents ≠ []
  bounded : ∀ text ∈ texts, text.utf8ByteSize ≤ budget

/-- There is room for the lead: beside the first entry for `First`, and for
`Every` beside each entry, or each character of it when it is beyond the
budget by itself. -/
def LeadFits (budget : Nat) (entries : List String) : NoticeHeader → Prop
  | .none => True
  | .first lead =>
      lead = "" ∨ lead.utf8ByteSize + (entries.headD "").utf8ByteSize ≤ budget
  | .every lead =>
      ∀ entry ∈ entries,
        lead.utf8ByteSize + entry.utf8ByteSize ≤ budget ∨
          budget < entry.utf8ByteSize ∧
            ∀ char ∈ entry.toList, lead.utf8ByteSize + char.utf8Size ≤ budget

variable {entries texts : List String} {contents : List NoticeContent}

theorem Covers.imp {wide narrow : String → Prop} (covers : Covers wide entries contents)
    (narrower : ∀ entry ∈ entries, wide entry → narrow entry) :
    Covers narrow entries contents := by
  induction covers with
  | nil => exact .nil
  | entries some _ ih =>
      exact .entries some (ih fun entry among =>
        narrower entry (List.mem_append_right _ among))
  | pieces oversized same filled _ ih =>
      obtain ⟨isNarrow, narrower⟩ := List.forall_mem_cons.mp narrower
      exact .pieces (isNarrow oversized) same filled (ih narrower)

theorem Covers.ne_nil {oversized : String → Prop}
    (covers : Covers oversized entries contents) (some : entries ≠ [])
    (short : ¬oversized "") : contents ≠ [] := by
  cases covers with
  | nil => exact absurd rfl some
  | entries => exact List.cons_ne_nil _ _
  | @pieces entry pieces _ _ isOversized same _ _ =>
      intro none
      rw [List.map_eq_nil_iff.mp (List.append_eq_nil_iff.mp none).1] at same
      change "" = entry at same
      exact short (by rw [same]; exact isOversized)

/-- An entry is among those of a notice, or its pieces are notices. -/
theorem Covers.mem {oversized : String → Prop} {entry : String}
    (covers : Covers oversized entries contents) (among : entry ∈ entries) :
    (∃ texts, .entries texts ∈ contents ∧ entry ∈ texts) ∨
      oversized entry ∧ ∃ pieces, joinWith "" pieces = entry ∧
        ∀ piece ∈ pieces, .piece piece ∈ contents := by
  induction covers with
  | nil => cases among
  | @entries texts rest contents _ _ ih =>
      rcases List.mem_append.mp among with isHere | later
      · exact Or.inl ⟨texts, List.mem_cons_self, isHere⟩
      · rcases ih later with
          ⟨texts, found, isHere⟩ | ⟨large, pieces, same, found⟩
        · exact Or.inl ⟨texts, List.mem_cons_of_mem _ found, isHere⟩
        · exact Or.inr ⟨large, pieces, same, fun piece isPiece =>
            List.mem_cons_of_mem _ (found piece isPiece)⟩
  | @pieces first firstPieces rest contents large same _ _
      ih =>
      rcases List.mem_cons.mp among with isFirst | later
      · rw [isFirst]
        exact Or.inr ⟨large, firstPieces, same, fun piece isPiece =>
          List.mem_append_left _ (List.mem_map_of_mem isPiece)⟩
      · rcases ih later with
          ⟨texts, found, isHere⟩ | ⟨large, pieces, same, found⟩
        · exact Or.inl ⟨texts, List.mem_append_right _ found, isHere⟩
        · exact Or.inr ⟨large, pieces, same, fun piece isPiece =>
            List.mem_append_right _ (found piece isPiece)⟩

theorem spellNotices_map (separator repeated : String) (contents : List NoticeContent) :
    spellNotices separator repeated repeated contents =
      contents.map fun content => repeated ++ content.body separator := by
  induction contents with
  | nil => rfl
  | cons content rest ih =>
      rw [spellNotices, ih]
      rfl

/-- With room for the lead nothing is lost. -/
theorem lossless_of_leadFits (room : 4 ≤ budget) (fits : LeadFits budget entries header) :
    Lossless budget header separator entries
      (noticeTexts budget header entries separator) := by
  unfold noticeTexts
  dsimp only
  by_cases small : (header.lead ++ joinWith separator entries).utf8ByteSize ≤ budget
  · rw [if_pos small]
    refine ⟨⟨[.entries entries], rfl, ?_, fun _ _ => List.cons_ne_nil _ _⟩,
      fun text among => ?_⟩
    · by_cases none : entries = []
      · exact Or.inr ⟨none, by rw [none]⟩
      · have covers := @Covers.entries (fun entry =>
          budget < entry.utf8ByteSize) entries [] [] none .nil
        rw [List.append_nil] at covers
        exact Or.inl covers
    · rw [List.mem_singleton.mp among]
      exact small
  · rw [if_neg small]
    have packed : Packed budget header separator header.lead [] entries _ :=
      packEntries_packed header.lead [] entries false header.lead rfl
        (by rw [joinWith, String.append_empty])
        (fun impossible => absurd rfl impossible)
    obtain ⟨contents, opening, spelled, covers, either, opens⟩ :=
      packed.spelled
    rw [List.nil_append] at covers opens
    have cuts : CutsFit budget header entries ∧
        ∀ entry ∈ entries, Oversized budget header entry →
          budget < entry.utf8ByteSize := by
      have plain : header.repeated = "" → CutsFit budget header entries ∧
          ∀ entry ∈ entries, Oversized budget header entry →
            budget < entry.utf8ByteSize := by
        intro alone
        unfold CutsFit Oversized
        rw [alone, String.utf8ByteSize_empty]
        refine ⟨fun _ _ _ char _ => ?_, fun _ _ large => by omega⟩
        have width := char.utf8Size_le_four
        omega
      cases header with
      | none => exact plain rfl
      | first lead => exact plain rfl
      | every lead =>
          have oversized : ∀ entry ∈ entries,
              Oversized budget (.every lead) entry →
              budget < entry.utf8ByteSize ∧ ∀ char ∈ entry.toList,
                lead.utf8ByteSize + char.utf8Size ≤ budget :=
            fun entry among large =>
              (fits entry among).resolve_left (Nat.not_le.mpr large)
          exact ⟨fun entry among large => (oversized entry among large).2,
            fun entry among large => (oversized entry among large).1⟩
    have isLead : opening = header.lead := by
      cases header with
      | none => exact either.elim id id
      | every lead => exact either.elim id id
      | first lead =>
          rcases fits with empty | beside
          · rw [empty] at either ⊢
            exact either.elim id id
          · refine opens fun entry rest same => ?_
            rw [same] at beside
            exact beside
    refine ⟨⟨contents, by rw [spelled, isLead], Or.inl (covers.imp cuts.2),
      fun lead isFirst => ?_⟩, packed.bounded cuts.1⟩
    refine covers.ne_nil (fun none => ?_) (fun large => ?_)
    · rw [none, isFirst] at small
      rw [isFirst, none] at fits
      refine small ?_
      change (lead ++ "").utf8ByteSize ≤ budget
      rw [String.append_empty]
      exact fits.elim (fun empty => by rw [empty]; exact Nat.zero_le _) id
    · rw [isFirst] at large
      exact Nat.not_lt_zero _ large

/-- Beside a lead that does not fit the first entry, the notices are those
without it. -/
theorem noticeTexts_withoutLead {lead : String}
    (beyond : budget < lead.utf8ByteSize + (entries.headD "").utf8ByteSize) :
    noticeTexts budget (.first lead) entries separator =
      packEntries budget (.first lead) separator "" false entries := by
  have large : ¬(lead ++ joinWith separator entries).utf8ByteSize ≤
      budget := by
    rw [String.utf8ByteSize_append]
    cases entries with
    | nil => exact Nat.not_le.mpr beyond
    | cons entry rest =>
        have part := utf8ByteSize_le_joinWith separator
          (List.mem_cons_self (a := entry) (l := rest))
        rw [List.headD_cons] at beyond
        omega
  unfold noticeTexts
  dsimp only [NoticeHeader.lead]
  rw [if_neg large]
  cases entries with
  | nil => rfl
  | cons entry rest =>
      rw [List.headD_cons] at beyond
      rw [packEntries, packEntries]
      dsimp only [NoticeHeader.repeated]
      rw [if_neg Bool.false_ne_true, if_neg (Nat.not_le.mpr beyond)]
      by_cases small : ("" : String).utf8ByteSize + entry.utf8ByteSize ≤ budget
      · rw [if_pos small, if_pos small]
        rfl
      · rw [if_neg small, if_neg small, if_neg small]
        rfl

/-- A character of a text is in a piece of it. -/
theorem utf8Size_le_piece {char : Char} {pieces : List String}
    (among : char ∈ (joinWith "" pieces).toList) :
    ∃ piece ∈ pieces, char.utf8Size ≤ piece.utf8ByteSize := by
  induction pieces with
  | nil => cases among
  | cons piece rest ih =>
      rw [joinWith_none_cons, String.toList_append] at among
      rcases List.mem_append.mp among with isHere | later
      · refine ⟨piece, List.mem_cons_self, ?_⟩
        obtain ⟨before, after, same⟩ := List.append_of_mem isHere
        have size := congrArg String.utf8ByteSize (congrArg String.ofList same)
        rw [String.ofList_toList, String.ofList_append,
          ← singleton_append_ofList, String.utf8ByteSize_append,
          String.utf8ByteSize_append, String.utf8ByteSize_singleton] at size
        omega
      · obtain ⟨found, isPiece, within⟩ := ih later
        exact ⟨found, List.mem_cons_of_mem _ isPiece, within⟩

/-- Notices lose nothing exactly with room for the lead. -/
theorem lossless_iff (room : 4 ≤ budget) :
    Lossless budget header separator entries
        (noticeTexts budget header entries separator) ↔
      LeadFits budget entries header := by
  refine ⟨fun lossless => ?_, lossless_of_leadFits room⟩
  obtain ⟨⟨contents, spelled, either, some⟩, bounded⟩ := lossless
  cases header with
  | none => trivial
  | first lead =>
      refine or_iff_not_imp_right.mpr fun beyond => ?_
      rw [noticeTexts_withoutLead (Nat.lt_of_not_le beyond)] at spelled bounded
      have weight := @packEntries_weight budget (.first lead) separator
        rfl (Nat.le_trans (by decide) room) "" false
        (Or.inr rfl) entries
      have covers := either.resolve_right fun none => by
        rw [none.1, packEntries] at spelled
        exact some lead rfl (by
          cases contents with
          | nil => rfl
          | cons => cases spelled)
      obtain ⟨content, rest, rfl⟩ :=
        List.exists_cons_of_ne_nil (some lead rfl)
      rw [spellNotices] at spelled
      dsimp only [NoticeHeader.repeated, NoticeHeader.lead] at spelled
      rw [spellNotices_map] at spelled
      have plain : (fun content : NoticeContent =>
          "" ++ content.body separator) = NoticeContent.body separator :=
        funext fun content => String.empty_append
      rw [plain] at spelled
      rw [spelled] at weight bounded
      obtain ⟨within, later⟩ := List.forall_mem_cons.mp bounded
      rw [String.utf8ByteSize_append] at within
      have least := @Covers.weigh_le budget separator _ _ covers fun content
          among => by
        rcases List.mem_cons.mp among with isFirst | inRest
        · rw [isFirst]
          exact Nat.le_trans (Nat.le_add_left _ _) within
        · exact later _ (List.mem_map_of_mem inRest)
      rw [weigh_cons, String.utf8ByteSize_append,
        if_neg Bool.false_ne_true, weigh_nil] at weight
      rw [List.map_cons, weigh_cons] at least
      exact String.utf8ByteSize_eq_zero_iff.mp (by omega)
  | every lead =>
      intro entry among
      have whole : ∀ content ∈ contents,
          lead.utf8ByteSize + (content.body separator).utf8ByteSize ≤
            budget := by
        intro content isContent
        rw [← String.utf8ByteSize_append]
        refine bounded _ ?_
        rw [spelled]
        change _ ∈ spellNotices separator lead lead contents
        rw [spellNotices_map]
        exact List.mem_map_of_mem isContent
      have covers := either.resolve_right fun none => by
        rw [none.1] at among
        cases among
      rcases covers.mem among with
        ⟨texts, found, isHere⟩ | ⟨large, pieces, same, found⟩
      · left
        have part := utf8ByteSize_le_joinWith separator isHere
        have within := whole _ found
        change _ + (joinWith separator texts).utf8ByteSize ≤ _ at within
        omega
      · refine Or.inr ⟨large, fun char isChar => ?_⟩
        obtain ⟨piece, isPiece, part⟩ := utf8Size_le_piece (by rw [same]; exact isChar)
        exact Nat.le_trans (Nat.add_le_add_left part _) (whole _ (found piece isPiece))

/-! ## The notices of a turn -/

/-- The bytes of text that a notice for a room may have. -/
def noticeBudget (turn : HubTurn) (room : Option String) : Nat :=
  max (turn.textBodyBudget .notice room) minNoticeBodyBytes

/-- The notices that a turn adds lose nothing. -/
def AddsLossless (turn next : HubTurn) (linkId : LinkId)
    (header : NoticeHeader) (entries : List String) (separator : String)
    (room : Option String) : Prop :=
  ∃ texts,
    next.out = turn.out ++ texts.map (fun text =>
      ⟨turn.hubNotice linkId text room, turn.core⟩) ∧
    Lossless (noticeBudget turn room) header separator entries texts

theorem pushNoticeEntries_out (turn : HubTurn) (linkId : LinkId)
    (header : NoticeHeader) (entries : List String) (separator : String)
    (room : Option String) :
    (turn.pushNoticeEntries linkId header entries separator room).out =
      turn.out ++ (noticeTexts (noticeBudget turn room) header entries
        separator).map (fun text =>
          ⟨turn.hubNotice linkId text room, turn.core⟩) := by
  unfold HubTurn.pushNoticeEntries
  rw [HubTurn.pushAll_out, List.map_map]
  rfl

/-- What a turn adds decides whether anything is lost. -/
theorem addsLossless_iff {turn next : HubTurn} {linkId : LinkId} {room : Option String}
    (adds : next.out = turn.out ++ texts.map (fun text =>
      ⟨turn.hubNotice linkId text room, turn.core⟩)) :
    AddsLossless turn next linkId header entries separator room ↔
      Lossless (noticeBudget turn room) header separator entries texts := by
  refine ⟨fun ⟨others, same, lossless⟩ => ?_,
    fun lossless => ⟨texts, adds, lossless⟩⟩
  rw [adds] at same
  have equal := List.map_injective_iff.mpr (fun first second same => by
    simpa [HubTurn.hubNotice, HubTurn.hubEnvelope] using same)
    (List.append_cancel_left same)
  rw [equal]
  exact lossless

theorem four_le_noticeBudget (turn : HubTurn) (room : Option String) :
    4 ≤ noticeBudget turn room :=
  Nat.le_trans (by decide) (Nat.le_max_right _ minNoticeBodyBytes)

/-- The notices of a turn lose nothing exactly with room for the lead. -/
theorem pushNoticeEntries_lossless (turn : HubTurn) (linkId : LinkId)
    (header : NoticeHeader) (entries : List String) (separator : String)
    (room : Option String) :
    AddsLossless turn
        (turn.pushNoticeEntries linkId header entries separator room) linkId
        header entries separator room ↔
      LeadFits (noticeBudget turn room) entries header := by
  rw [addsLossless_iff (pushNoticeEntries_out ..)]
  exact lossless_iff (four_le_noticeBudget turn room)

theorem utf8ByteSize_replicate (count : Nat) :
    (String.ofList (List.replicate count 'a')).utf8ByteSize = count := by
  rw [utf8ByteSize_ofList]
  induction count with
  | zero => rfl
  | succ count ih =>
      rw [List.replicate_succ, Tally.totalSize_cons, ih]
      exact Nat.add_comm 1 count

section Samples

attribute [local instance] asciiTables sampleCrypto

/-- A turn of the sample hub. -/
def sampleTurn : HubTurn :=
  (sampleHub []).turn (ambientAt 0)

/-- A room of a request that leaves a notice few bytes of text. -/
def longRoom : String :=
  String.ofList (List.replicate 350 'a')

theorem noticeBudget_longRoom :
    noticeBudget sampleTurn (some longRoom) = 38 := by
  have size : longRoom.utf8ByteSize = 350 := utf8ByteSize_replicate 350
  generalize longRoom = room at size ⊢
  have overhead : sampleTurn.envelopeOverhead .notice (some room) =
      1 + (2 + (2 + (10 + (2 + (18 +
        (1 + (headLen room.utf8ByteSize + room.utf8ByteSize) + 2)))))) :=
    rfl
  rw [noticeBudget, HubTurn.textBodyBudget, overhead, size]
  rfl

/-- The list of two bans comes without its lead. -/
theorem pushNoticeEntries_losesLead :
    (sampleTurn.pushNoticeEntries linkOne (.first "bans in r: ")
        [hexEncode alice.val, hexEncode bob.val] ", " (some longRoom)).out =
      [⟨sampleTurn.hubNotice linkOne (hexEncode alice.val) (some longRoom),
          sampleTurn.core⟩,
        ⟨sampleTurn.hubNotice linkOne (hexEncode bob.val) (some longRoom), sampleTurn.core⟩] ∧
      ¬ AddsLossless sampleTurn
        (sampleTurn.pushNoticeEntries linkOne (.first "bans in r: ")
          [hexEncode alice.val, hexEncode bob.val] ", " (some longRoom))
        linkOne (.first "bans in r: ")
        [hexEncode alice.val, hexEncode bob.val] ", " (some longRoom) := by
  constructor
  · have texts : noticeTexts 38 (.first "bans in r: ")
        [hexEncode alice.val, hexEncode bob.val] ", " =
          [hexEncode alice.val, hexEncode bob.val] := by decide
    rw [pushNoticeEntries_out, noticeBudget_longRoom, texts]
    rfl
  · rw [addsLossless_iff (pushNoticeEntries_out ..),
      lossless_iff (four_le_noticeBudget ..), noticeBudget_longRoom]
    unfold LeadFits
    decide

end Samples

end Ratspeak.Hub
