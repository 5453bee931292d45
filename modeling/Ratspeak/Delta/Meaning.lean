import Ratspeak.Delta.Applier

/-!
# What a patch means

A decoder without a window, a bit buffer, an output buffer or a cache: it
keeps everything it unpacked, everything it made and the bits that are still
waiting, and has no value once a patch is wrong.  At the end of a block all
it keeps is what it made.
-/

namespace Ratspeak.Delta

open Library

/-- The fields of the items of a packed block. -/
def lzssShape : Lzss.Shape where
  indexBits := lzssIndexBits
  lengthBits := lzssLengthBits
  minMatch := lzssMinMatch

/-! ## Operations -/

/-- A number with the next seven bits of it, unless it is too long. -/
def grow (value shift : Nat) (byte : UInt8) : Option Nat :=
  if 28 < shift ∨ (shift = 28 ∧ byte &&& 0x70 ≠ 0) then none
  else some (value ||| ((byte &&& 0x7f).toNat <<< shift) % 2 ^ 32)

/-- The operation at hand, the base offset it works from, and the output. -/
structure Work where
  op : Op
  cursor : Nat
  made : List UInt8
  deriving DecidableEq

/-- The work after one more byte of the operations of a block. -/
def Work.step (base : List UInt8) (blockEnd : Nat) (work : Work) (byte : UInt8) : Option Work :=
  match work.op with
  | .tag =>
      if byte = opAdd then some { work with op := .len true 0 0 }
      else if byte = opInsert then some { work with op := .len false 0 0 }
      else none
  | .len add value shift =>
      match grow value shift byte with
      | none => none
      | some value =>
          if byte &&& 0x80 ≠ 0 then
            some { work with op := .len add value (shift + 7) }
          else if value = 0 ∨ blockEnd < work.made.length + value then none
          else if add then some { work with op := .seek value 0 0 }
          else some { work with op := .insert value }
  | .seek length value shift =>
      match grow value shift byte with
      | none => none
      | some value =>
          if byte &&& 0x80 ≠ 0 then
            some { work with op := .seek length value (shift + 7) }
          else if (work.cursor : Int) + unzigzag value < 0 ∨
              (base.length : Int) < (work.cursor : Int) + unzigzag value + length then
            none
          else
            some
              { work with
                op := .add length
                cursor := ((work.cursor : Int) + unzigzag value).toNat }
  | .add left =>
      match base[work.cursor]? with
      | none => none
      | some original =>
          some
            { op := if left = 1 then .tag else .add (left - 1)
              cursor := work.cursor + 1
              made := work.made ++ [original + byte] }
  | .insert left =>
      some
        { work with
          op := if left = 1 then .tag else .insert (left - 1)
          made := work.made ++ [byte] }

/-- The work after more bytes of the operations of a block. -/
def Work.run (base : List UInt8) (blockEnd : Nat) :
    Work → List UInt8 → Option Work
  | work, [] => some work
  | work, byte :: rest =>
      match work.step base blockEnd byte with
      | none => none
      | some reached => Work.run base blockEnd reached rest

theorem Work.run_append (base : List UInt8) (blockEnd : Nat) (work : Work)
    (first second : List UInt8) :
    work.run base blockEnd (first ++ second) =
      (work.run base blockEnd first).bind fun reached =>
        reached.run base blockEnd second := by
  induction first generalizing work with
  | nil => rfl
  | cons byte rest ih =>
      simp only [List.cons_append, Work.run]
      cases work.step base blockEnd byte with
      | none => rfl
      | some reached => exact ih reached

/-! ## Patches -/

/-- A decoder in the header, between blocks with the bytes of a block header,
inside a block with its unpacked bytes and waiting bits, or at the end. -/
inductive Decoder where
  | header (seen : List UInt8)
  | blockHeader (made seen : List UInt8)
  | body (packedLeft blockEnd : Nat) (work : Work) (past : List UInt8)
      (waiting : List Bool)
  | done (made : List UInt8)
  deriving DecidableEq

/-- What a decoder has made so far. -/
def Decoder.made : Decoder → List UInt8
  | .header _ => []
  | .blockHeader made _ => made
  | .body _ _ work _ _ => work.made
  | .done made => made

/-- The decoder after a block with this output. -/
def Decoder.after (target : Nat) (made : List UInt8) : Decoder :=
  if made.length = target then .done made else .blockHeader made []

@[simp]
theorem Decoder.made_after (target : Nat) (made : List UInt8) :
    (Decoder.after target made).made = made := by
  simp only [Decoder.after]
  split
  · rfl
  · rfl

/-- Header bytes that announce a patch for this target. -/
def Announces (target : Nat) (seen : List UInt8) : Prop :=
  seen.take 4 = deltaMagic ∧ seen[4]? = some deltaVersion ∧
    (seen.drop 5).take 3 = [0, 0, 0] ∧ ofLittleEndian (seen.drop 8) = target ∧ target ≠ 0

instance (target : Nat) (seen : List UInt8) :
    Decidable (Announces target seen) :=
  inferInstanceAs (Decidable (_ ∧ _))

/-- The decoder after one more byte of a patch. -/
def Decoder.step (base : List UInt8) (target : Nat) (decoder : Decoder)
    (byte : UInt8) : Option Decoder :=
  match decoder with
  | .header seen =>
      if (seen ++ [byte]).length < deltaHeaderLen then
        some (.header (seen ++ [byte]))
      else if Announces target (seen ++ [byte]) then
        some (.blockHeader [] [])
      else none
  | .blockHeader made seen =>
      let read := seen ++ [byte]
      if read.length < deltaBlockHeaderLen then
        some (.blockHeader made read)
      else if ofLittleEndian (read.take 4) = 0 ∨
          base.length < ofLittleEndian (read.drop 4) then
        none
      else
        some (.body (ofLittleEndian (read.take 4))
          (min (made.length + deltaBlockOut) target)
          ⟨.tag, ofLittleEndian (read.drop 4), made⟩ [] [])
  | .body packedLeft blockEnd work past waiting =>
      let items :=
        Lzss.takeItems lzssShape (waiting ++ bitsOf 8 byte.toNat)
      let bytes := Lzss.expand past items.1
      match work.run base blockEnd bytes with
      | none => none
      | some reached =>
          if packedLeft ≠ 1 then
            some (.body (packedLeft - 1) blockEnd reached (bytes.reverse ++ past) items.2)
          else if reached.made.length = blockEnd ∧ reached.op = .tag ∧
              items.2.length < 8 then
            some (.after target reached.made)
          else none
  | .done _ => none

/-- The decoder after more bytes of a patch. -/
def Decoder.run (base : List UInt8) (target : Nat) :
    Decoder → List UInt8 → Option Decoder
  | decoder, [] => some decoder
  | decoder, byte :: rest =>
      match decoder.step base target byte with
      | none => none
      | some reached => Decoder.run base target reached rest

theorem Decoder.run_append (base : List UInt8) (target : Nat)
    (decoder : Decoder) (first second : List UInt8) :
    decoder.run base target (first ++ second) =
      (decoder.run base target first).bind fun reached =>
        reached.run base target second := by
  induction first generalizing decoder with
  | nil => rfl
  | cons byte rest ih =>
      simp only [List.cons_append, Decoder.run]
      cases decoder.step base target byte with
      | none => rfl
      | some reached => exact ih reached

/-! ## Output only grows -/

theorem Work.made_step {base : List UInt8} {blockEnd : Nat} {work reached : Work} {byte : UInt8}
    (isStep : work.step base blockEnd byte = some reached) :
    work.made <+: reached.made := by
  simp only [Work.step] at isStep
  split at isStep
  · split at isStep
    · cases isStep
      exact List.prefix_refl _
    · split at isStep
      · cases isStep
        exact List.prefix_refl _
      · cases isStep
  · split at isStep
    · cases isStep
    · split at isStep
      · cases isStep
        exact List.prefix_refl _
      · split at isStep
        · cases isStep
        · split at isStep
          · cases isStep
            exact List.prefix_refl _
          · cases isStep
            exact List.prefix_refl _
  · split at isStep
    · cases isStep
    · split at isStep
      · cases isStep
        exact List.prefix_refl _
      · split at isStep
        · cases isStep
        · cases isStep
          exact List.prefix_refl _
  · split at isStep
    · cases isStep
    · cases isStep
      exact List.prefix_append _ _
  · cases isStep
    exact List.prefix_append _ _

theorem Work.made_run {base : List UInt8} {blockEnd : Nat}
    {work reached : Work} {bytes : List UInt8}
    (runs : work.run base blockEnd bytes = some reached) :
    work.made <+: reached.made := by
  induction bytes generalizing work with
  | nil =>
      simp only [Work.run, Option.some.injEq] at runs
      subst runs
      exact List.prefix_refl _
  | cons byte rest ih =>
      simp only [Work.run] at runs
      cases isStep : work.step base blockEnd byte with
      | none =>
          rw [isStep] at runs
          cases runs
      | some next =>
          rw [isStep] at runs
          exact (Work.made_step isStep).trans (ih runs)

theorem Decoder.made_step {base : List UInt8} {target : Nat}
    {decoder reached : Decoder} {byte : UInt8}
    (isStep : decoder.step base target byte = some reached) :
    decoder.made <+: reached.made := by
  cases decoder with
  | header seen => exact List.nil_prefix
  | blockHeader made seen =>
      simp only [Decoder.step] at isStep
      split at isStep
      · cases isStep
        exact List.prefix_refl _
      · split at isStep
        · cases isStep
        · cases isStep
          exact List.prefix_refl _
  | body packedLeft blockEnd work past waiting =>
      simp only [Decoder.step] at isStep
      split at isStep
      · cases isStep
      · rename_i next runs
        have grows := Work.made_run runs
        split at isStep
        · cases isStep
          exact grows
        · split at isStep
          · cases isStep
            rw [Decoder.made_after]
            exact grows
          · cases isStep
  | done made => cases isStep

theorem Decoder.made_run {base : List UInt8} {target : Nat}
    {decoder reached : Decoder} {patch : List UInt8}
    (runs : decoder.run base target patch = some reached) :
    decoder.made <+: reached.made := by
  induction patch generalizing decoder with
  | nil =>
      simp only [Decoder.run, Option.some.injEq] at runs
      subst runs
      exact List.prefix_refl _
  | cons byte rest ih =>
      simp only [Decoder.run] at runs
      cases isStep : decoder.step base target byte with
      | none =>
          rw [isStep] at runs
          cases runs
      | some next =>
          rw [isStep] at runs
          exact (Decoder.made_step isStep).trans (ih runs)

end Ratspeak.Delta
