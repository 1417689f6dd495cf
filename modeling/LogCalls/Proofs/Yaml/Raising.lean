/-
LogCalls/Proofs/Yaml/Raising.lean

What reading a document can come to.  Its value is one that was given
(`isUnset_of_read`), and its faults are few (`raisesOnly_read`): a text that is no
document, a number, a character or a moment that does not exist, and a slip
(`Mistake.isSlip`).

The induction is over the nodes, one lemma for each kind of reading; every reading
is put together from operations that raise such faults only.
-/
import LogCalls.Proofs.Outcome
import LogCalls.Yaml.Meaning

namespace LogCalls

/-- The slips: a tag asks for what its content is not, a number or a code is too large,
or a mapping is inside itself. -/
def Mistake.isSlip : Mistake → Bool
  | .index | .attribute | .key | .type | .overflow | .depth => true
  | _ => false

/-- The faults of a document. -/
inductive Fault.IsOfDocument : Fault → Prop
  | malformed : IsOfDocument .malformedYaml
  | tooManyDigits (count : Nat) : IsOfDocument (.tooManyDigits count)
  | noNumeral (base : Nat) (word : String) : IsOfDocument (.noNumeral base word)
  | noReal (word : String) : IsOfDocument (.noReal word)
  | noCharacter : IsOfDocument .noCharacter
  | calendar (part : CalendarPart) : IsOfDocument (.calendar part)
  | mistaken {m : Mistake} (h : m.isSlip = true) (wording : String) :
      IsOfDocument (.mistaken m wording)

/-- A command reports the faults of a document but for malformed ones and slips. -/
theorem Fault.IsOfDocument.isOfSettings_eq_false_iff {f : Fault} (h : f.IsOfDocument) :
    f.isOfSettings = false ↔
      f = .malformedYaml ∨ ∃ m wording, f = .mistaken m wording ∧ m.isSlip = true := by
  cases h with
  | malformed => exact iff_of_true rfl (.inl rfl)
  | mistaken hm wording =>
      refine iff_of_true ?_ (.inr ⟨_, wording, rfl, hm⟩)
      cases ‹Mistake› <;> first | rfl | cases hm
  | _ => exact iff_of_false nofun (by simp)

namespace Yaml

open Fault (IsOfDocument)

/-! ### Scalars -/

theorem raisesOnly_readNumeral (base : Nat) (word : Text) :
    RaisesOnly IsOfDocument (readNumeral base word) := by
  unfold readNumeral
  split
  · exact raisesOnly_ok _
  · dsimp only
    split
    · exact raisesOnly_error (.tooManyDigits _)
    · exact raisesOnly_error (.noNumeral _ _)

theorem raisesOnly_readSixtieths (parts : List Text) :
    RaisesOnly IsOfDocument (readSixtieths parts) :=
  (RaisesOnly.mapM (raisesOnly_readNumeral 10) parts).bind fun _ => raisesOnly_ok _

theorem raisesOnly_unsigned (t : Text) : RaisesOnly IsOfDocument (unsigned t) := by
  cases t with
  | nil => exact raisesOnly_error (.mistaken rfl _)
  | cons c r => exact raisesOnly_ok _

theorem raisesOnly_readUnsigned (t : Text) : RaisesOnly IsOfDocument (readUnsigned t) := by
  unfold readUnsigned
  split
  · exact raisesOnly_error (.mistaken rfl _)
  · exact raisesOnly_readNumeral 2 _
  · exact raisesOnly_readNumeral 16 _
  · exact raisesOnly_readNumeral 8 _
  · split
    · exact raisesOnly_readSixtieths _
    · exact raisesOnly_readNumeral 10 _

theorem raisesOnly_readWhole (t : Text) : RaisesOnly IsOfDocument (readWhole t) :=
  (raisesOnly_unsigned _).bind fun _ => (raisesOnly_readUnsigned _).bind fun _ => raisesOnly_ok _

theorem raisesOnly_readDecimal (t : Text) : RaisesOnly IsOfDocument (readDecimal t) := by
  unfold readDecimal
  split
  · exact raisesOnly_ok _
  · exact raisesOnly_error (.noReal _)

theorem raisesOnly_sumSixtieths (base : Nat) (parts : List Binary64) (sum : Binary64) :
    RaisesOnly IsOfDocument (sumSixtieths base parts sum) := by
  induction parts generalizing base sum with
  | nil => exact raisesOnly_ok sum
  | cons part parts ih =>
      unfold sumSixtieths
      split
      · exact raisesOnly_error (.mistaken rfl _)
      · exact ih _ _

theorem raisesOnly_readReal (t : Text) : RaisesOnly IsOfDocument (readReal t) := by
  refine (raisesOnly_unsigned _).bind fun ⟨negative, digits⟩ => ?_
  dsimp only
  split
  · exact raisesOnly_ok _
  split
  · exact raisesOnly_ok _
  split
  · exact (RaisesOnly.mapM raisesOnly_readDecimal _).bind fun _ =>
      (raisesOnly_sumSixtieths _ _ _).bind fun _ => raisesOnly_ok _
  · exact (raisesOnly_readDecimal _).bind fun _ => raisesOnly_ok _

theorem raisesOnly_readTruth (t : Text) : RaisesOnly IsOfDocument (readTruth t) := by
  unfold readTruth
  dsimp only
  split
  · exact raisesOnly_ok _
  split
  · exact raisesOnly_ok _
  · exact raisesOnly_error (.mistaken rfl _)

theorem raisesOnly_readBytes (t : Text) : RaisesOnly IsOfDocument (readBytes t) := by
  unfold readBytes
  split
  · exact raisesOnly_ok _
  · exact raisesOnly_error .malformed

theorem raisesOnly_readClock (c : WrittenClock) : RaisesOnly IsOfDocument c.read := by
  unfold WrittenClock.read
  dsimp only
  split
  · split
    · exact raisesOnly_error (.calendar _)
    · exact raisesOnly_ok _
  · exact raisesOnly_ok _

theorem raisesOnly_readMoment (t : Text) : RaisesOnly IsOfDocument (readMoment t) := by
  unfold readMoment
  split
  next w _ =>
    refine RaisesOnly.bind ?_ fun clock => ?_
    · rcases w.clock with _ | c
      · exact raisesOnly_ok _
      · exact (raisesOnly_readClock c).map _
    · dsimp only
      split
      · exact raisesOnly_error (.calendar _)
      · exact raisesOnly_ok _
  · exact raisesOnly_error (.mistaken rfl _)

theorem raisesOnly_readScalar (tag : Tag) (t : Text) :
    RaisesOnly IsOfDocument (readScalar tag t) := by
  cases tag with
  | null => exact raisesOnly_ok _
  | truth => exact (raisesOnly_readTruth t).map _
  | whole => exact (raisesOnly_readWhole t).map _
  | real => exact (raisesOnly_readReal t).map _
  | moment => exact (raisesOnly_readMoment t).map _
  | text => exact raisesOnly_ok _
  | bytes => exact (raisesOnly_readBytes t).map _
  | _ => exact raisesOnly_error .malformed

/-! ### Nodes -/

/-- The faults of a reading at any depth are those of a document. -/
abbrev Found.IsSound {α : Type} (x : Found α) : Prop := RaisesOnly (fun p => p.2.IsOfDocument) x

namespace Found

variable {α β : Type}

theorem isSound_malformed (depth : Nat) : IsSound (.error (depth, .malformedYaml) : Found α) :=
  raisesOnly_error .malformed

theorem isSound_atDepth {r : Except Fault α} (h : RaisesOnly IsOfDocument r) (depth : Nat) :
    IsSound (atDepth depth r) := by
  rcases r with f | a
  · exact raisesOnly_error (h f rfl)
  · exact raisesOnly_ok a

theorem isSound_both {x : Found α} {y : Found β} (hx : x.IsSound) (hy : y.IsSound) :
    (both x y).IsSound := by
  rcases x with f | a
  · rcases y with g | b
    · refine raisesOnly_error ?_
      split
      · exact hy g rfl
      · exact hx f rfl
    · exact raisesOnly_error (hx f rfl)
  · rcases y with g | b
    · exact raisesOnly_error (hy g rfl)
    · exact raisesOnly_ok _

end Found

namespace Node

open Found

theorem isSound_keyAt (depth : Nat) (n : Node) : (keyAt depth n).IsSound := by
  unfold keyAt
  dsimp only
  split
  · exact isSound_atDepth (raisesOnly_readScalar _ _) depth
  · exact isSound_malformed depth

theorem isSound_scalarAt (depth : Nat) (n : Node) : (scalarAt depth n).IsSound := by
  unfold scalarAt
  split
  · exact raisesOnly_error (.mistaken rfl _)
  · exact (isSound_atDepth (raisesOnly_readScalar _ _) depth).map _
  · exact isSound_malformed depth

mutual

theorem isSound_valueAt (depth : Nat) (n : Node) : (valueAt depth n).IsSound := by
  cases n with
  | scalar tag content =>
      unfold valueAt
      split
      · exact isSound_malformed _
      · exact isSound_malformed _
      · exact isSound_malformed _
      · exact isSound_malformed _
      · exact isSound_scalarAt _ _
  | list tag items =>
      unfold valueAt
      split
      · exact (isSound_itemsAt _ items).map _
      · exact (isSound_pairsAt _ items).map _
      · exact isSound_malformed _
      · exact isSound_malformed _
      · exact isSound_malformed _
  | mapping tag entries =>
      unfold valueAt
      split
      · exact (isSound_entriesAt _ entries).map _
      · exact (isSound_entriesAt _ entries).map _
      · exact isSound_malformed _
      · exact isSound_malformed _
      · exact isSound_scalarAt _ _
  | around ofMapping =>
      unfold valueAt
      exact raisesOnly_ok _

theorem isSound_itemsAt (depth : Nat) (items : List Node) : (itemsAt depth items).IsSound := by
  cases items with
  | nil =>
      unfold itemsAt
      exact raisesOnly_ok _
  | cons n items =>
      unfold itemsAt
      exact (isSound_both (isSound_valueAt depth n) (isSound_itemsAt depth items)).map _

theorem isSound_pairsAt (depth : Nat) (items : List Node) : (pairsAt depth items).IsSound := by
  cases items with
  | nil =>
      unfold pairsAt
      exact raisesOnly_ok _
  | cons n items =>
      unfold pairsAt
      exact (isSound_both (isSound_pairAt depth n) (isSound_pairsAt depth items)).map _

theorem isSound_pairAt (depth : Nat) (n : Node) : (pairAt depth n).IsSound := by
  match n with
  | .mapping tag [(k, v)] =>
      unfold pairAt pairOf
      exact (isSound_both (isSound_valueAt depth k) (isSound_valueAt depth v)).map _
  | .mapping _ [] | .mapping _ (_ :: _ :: _) | .scalar .. | .list .. | .around _ =>
      unfold pairAt
      exact isSound_malformed depth

theorem isSound_entriesAt (depth : Nat) (entries : List (Node × Node)) :
    (entriesAt depth entries).IsSound := by
  match entries with
  | [] =>
      unfold entriesAt
      exact raisesOnly_ok _
  | (k, v) :: entries =>
      unfold entriesAt entryAt
      exact (isSound_both (isSound_both (isSound_keyAt depth k) (isSound_valueAt depth v))
        (isSound_entriesAt depth entries)).map _

end

theorem raisesOnly_value (n : Node) : RaisesOnly IsOfDocument n.value := by
  refine RaisesOnly.bind ?_ fun v => ?_
  · rintro f hf
    rcases hv : valueAt 0 n.merged with p | v
    · rw [hv] at hf
      obtain rfl : p.2 = f := Except.error.inj hf
      exact isSound_valueAt 0 n.merged p hv
    · rw [hv] at hf
      cases hf
  · split
    · exact raisesOnly_error (.mistaken rfl _)
    · exact raisesOnly_ok v

/-- No node stands for an option that was not given. -/
theorem isUnset_of_valueAt {depth : Nat} {n : Node} {v : Value} (h : valueAt depth n = .ok v) :
    v.isUnset = false := by
  have hscalar : ∀ {n : Node}, scalarAt depth n = .ok v → v.isUnset = false := by
    intro n h
    unfold scalarAt at h
    split at h
    · cases h
    · obtain ⟨k, -, rfl⟩ := map_eq_ok_iff.mp h
      cases k <;> rfl
    · cases h
  unfold valueAt at h
  split at h
  · split at h
    all_goals first | exact hscalar h | cases h
  · split at h
    all_goals first | cases h | (obtain ⟨_, -, rfl⟩ := map_eq_ok_iff.mp h; rfl)
  · split at h
    all_goals
      first | exact hscalar h | cases h | (obtain ⟨_, -, rfl⟩ := map_eq_ok_iff.mp h; rfl)
  next ofMapping =>
    obtain rfl := Except.ok.inj h
    cases ofMapping <;> rfl

end Node

theorem isOfDocument_of_defect (d : Defect) : d.fault.IsOfDocument := by
  cases d with
  | noCharacter => exact .noCharacter
  | codeTooLarge => exact .mistaken rfl _
  | longVersion digits => exact .tooManyDigits digits

/-- Reading a document raises the faults of documents only. -/
theorem raisesOnly_read (t : Text) : RaisesOnly IsOfDocument (read t) := by
  unfold read
  split
  · exact raisesOnly_error .malformed
  split
  · exact raisesOnly_error (isOfDocument_of_defect _)
  split
  · exact Node.raisesOnly_value _
  · exact raisesOnly_error .malformed

/-- The value of a document does not stand for an option that was not given. -/
theorem isUnset_of_read {t : Text} {v : Value} (h : read t = .ok v) : v.isUnset = false := by
  unfold read at h
  split at h
  · cases h
  split at h
  · cases h
  split at h
  next n _ =>
    obtain ⟨w, hw, hrest⟩ := bind_eq_ok_iff.mp h
    split at hrest
    · cases hrest
    · obtain rfl : w = v := Except.ok.inj hrest
      rcases hv : Node.valueAt 0 n.merged with p | u
      · rw [hv] at hw
        cases hw
      · rw [hv] at hw
        obtain rfl : u = w := Except.ok.inj hw
        exact Node.isUnset_of_valueAt hv
  · cases h

end Yaml

end LogCalls
