import RomCast.Endpoint
import RomCast.Proofs.Bytes.Overwrite
import RomCast.Proofs.Header.Lawful

set_option autoImplicit false

/-!
# What fills a payload only appends

A step that fills a payload may claim bytes and write what it has claimed.  It leaves the bytes in
front of it alone, and neither moves back nor changes the length of the buffer, however it ends
(`Appends`).  Whatever fills the payload of a frame in this way, the frame begins with its Ethernet
header and lies within the buffer (`Endpoint.Addressing.write_eq_ok`).
-/

namespace RomCast

open RomCast.Action (Keeps)

namespace Writer

variable {ε α : Type} {w w' w'' : Writer}

/-- A writer that has gone on from another one. -/
structure Extends (w w' : Writer) : Prop where
  length_eq : w'.buffer.length = w.buffer.length
  position_le : w.position ≤ w'.position
  within : w'.position ≤ w'.buffer.length
  front_eq : w'.buffer.take w.position = w.buffer.take w.position

theorem Extends.refl (h : w.position ≤ w.buffer.length) : Extends w w :=
  ⟨rfl, Nat.le_refl _, h, rfl⟩

theorem Extends.trans (h : Extends w w') (h' : Extends w' w'') : Extends w w'' := by
  refine ⟨h'.length_eq.trans h.length_eq, Nat.le_trans h.position_le h'.position_le, h'.within, ?_⟩
  have hfront := congrArg (List.take w.position) h'.front_eq
  rw [List.take_take, List.take_take, Nat.min_eq_left h.position_le] at hfront
  exact hfront.trans h.front_eq

/-- Writing behind what was claimed at the start. -/
theorem Extends.overwrite (h : Extends w w') {start : Nat} (hstart : w.position ≤ start)
    (bytes : Bytes) : Extends w { w' with buffer := w'.buffer.overwrite start bytes } := by
  refine ⟨?_, h.position_le, ?_, ?_⟩
  · exact (Bytes.length_overwrite ..).trans h.length_eq
  · show w'.position ≤ (w'.buffer.overwrite start bytes).length
    rw [Bytes.length_overwrite]
    exact h.within
  · exact (Bytes.take_overwrite_of_le hstart _ _).trans h.front_eq

/-- A step that only appends, also when it fails. -/
def Appends (fill : Action ε Writer α) : Prop :=
  ∀ w : Writer, w.position ≤ w.buffer.length → Extends w (fill.state w)

/-! ## Steps that only append

A step appends when it goes on from whatever the writer has gone on from so far; this is what its
pieces keep. -/

theorem appends_of_keeps {fill : Action ε Writer α} (h : ∀ w, Keeps (Extends w) fill) :
    Appends fill :=
  fun w hw => h w w (.refl hw)

/-- Claiming succeeds when there is room, and moves the writer on. -/
theorem reserve_eq_ok {n start : Nat} (h : reserve n w = .ok start w') :
    n ≤ w.buffer.length - w.position ∧ start = w.position ∧
      w' = { w with position := w.position + n } := by
  by_cases hroom : n ≤ w.remaining
  · rw [reserve, if_pos hroom] at h
    cases h
    exact ⟨hroom, rfl, rfl⟩
  · rw [reserve, if_neg hroom] at h
    cases h

theorem putBytes_eq_ok {bytes : Bytes} {a : Unit} (h : putBytes bytes w = .ok a w') :
    bytes.length ≤ w.buffer.length - w.position ∧
      w' = ⟨w.buffer.overwrite w.position bytes, w.position + bytes.length⟩ := by
  obtain ⟨start, w₁, hreserve, hpatch⟩ := Action.of_bind_eq_ok h
  obtain ⟨hroom, rfl, rfl⟩ := reserve_eq_ok hreserve
  cases hpatch
  exact ⟨hroom, rfl⟩

theorem keeps_reserve_bind {n : Nat} {f : Nat → Action GuardError Writer α}
    (hf : ∀ start, w.position ≤ start → Keeps (Extends w) (f start)) :
    Keeps (Extends w) (reserve n >>= f) := by
  intro w' h
  by_cases hroom : n ≤ w'.remaining
  · have hreserve : reserve n w' = .ok w'.position { w' with position := w'.position + n } :=
      if_pos hroom
    rw [Action.state_bind_of_ok hreserve]
    refine hf w'.position h.position_le _ ⟨h.length_eq, ?_, ?_, h.front_eq⟩
    · exact Nat.le_trans h.position_le (Nat.le_add_right _ n)
    · have hroom' : n ≤ w'.buffer.length - w'.position := hroom
      have hwithin := h.within
      show w'.position + n ≤ w'.buffer.length
      omega
  · have hreserve : reserve n w' = .error (w'.refusal n) w' := if_neg hroom
    rw [Action.state_bind_of_error hreserve]
    exact h

theorem keeps_patch {start : Nat} (hstart : w.position ≤ start) (bytes : Bytes) :
    Keeps (Extends w) (patch start bytes) :=
  Action.keeps_modify fun _ h => h.overwrite hstart bytes

theorem keeps_putBytes (bytes : Bytes) : Keeps (Extends w) (putBytes bytes) :=
  keeps_reserve_bind fun _ hstart => keeps_patch hstart bytes

theorem putBytes_appends (bytes : Bytes) : Appends (putBytes bytes) :=
  appends_of_keeps fun _ => keeps_putBytes bytes

end Writer

/-! ## Frames -/

namespace Endpoint.Addressing

variable (a : Addressing)

/-- Completing the headers leaves what is in front of them. -/
theorem keeps_complete {w : Writer} {ipStart udpStart : Nat} (hip : w.position ≤ ipStart)
    (hudp : w.position ≤ udpStart) : Keeps w.Extends (a.complete ipStart udpStart) := by
  have hheader (w' : Writer) : Keeps w.Extends (do
      Writer.patch ipStart (Header.encode (a.ipv4 (w'.position - ipStart)))
      return w'.position) :=
    Keeps.bind (Writer.keeps_patch hip _) fun _ => Action.keeps_pure _ _
  refine Keeps.bind (Action.keeps_get _) fun w' => ?_
  refine Keeps.bind (Writer.keeps_patch hudp _) fun _ => ?_
  refine Keeps.ite ?_ (hheader w')
  refine Keeps.bind (Action.keeps_get _) fun w'' => ?_
  exact Keeps.bind (Writer.keeps_patch (Nat.le_trans hudp (Nat.le_add_right _ 6)) _) fun _ => hheader w'

/-- A frame ends where its payload ends. -/
theorem complete_eq_ok {w w' : Writer} {ipStart udpStart length : Nat}
    (h : a.complete ipStart udpStart w = .ok length w') : length = w.position := by
  have hresult : (a.complete ipStart udpStart).result w = .ok w.position := by
    unfold complete Action.result
    by_cases hcheck : a.withChecksum = true
    · simp only [hcheck, if_true, Action.bind_apply, Action.get_apply, Writer.patch,
        Action.modify_apply, Action.pure_apply]
    · simp only [hcheck, Bool.false_eq_true, if_false, Action.bind_apply, Action.get_apply,
        Writer.patch, Action.modify_apply, Action.pure_apply]
  rw [Action.result, h] at hresult
  exact Except.ok.inj hresult

/-- A frame begins with its Ethernet header, and lies within the buffer it was written into. -/
theorem write_eq_ok {fill : Action GuardError Writer Unit} (hfill : Writer.Appends fill)
    {buffer : Bytes} {length : Nat} {w : Writer} (h : a.write fill { buffer } = .ok length w) :
    42 ≤ length ∧ length ≤ buffer.length ∧ w.buffer.length = buffer.length ∧
      w.buffer.take 14 = Header.encode a.ethernet := by
  obtain ⟨_, w₁, hput, h⟩ := Action.of_bind_eq_ok h
  obtain ⟨ipStart, w₂, hip, h⟩ := Action.of_bind_eq_ok h
  obtain ⟨udpStart, w₃, hudp, h⟩ := Action.of_bind_eq_ok h
  obtain ⟨_, w₄, hfilled, hcomplete⟩ := Action.of_bind_eq_ok h
  have hethernet : (Header.encode a.ethernet).length = 14 := LawfulHeader.length_encode a.ethernet
  obtain ⟨hroom₁, rfl⟩ := Writer.putBytes_eq_ok hput
  obtain ⟨hroom₂, rfl, rfl⟩ := Writer.reserve_eq_ok hip
  obtain ⟨hroom₃, rfl, rfl⟩ := Writer.reserve_eq_ok hudp
  have hip : Header.size Ipv4Header = 20 := rfl
  have hudp : Header.size UdpHeader = 8 := rfl
  simp only [hethernet, hip, hudp, Nat.zero_add, Nat.sub_zero, Bytes.length_overwrite]
    at hroom₁ hroom₂ hroom₃ hfilled hcomplete
  -- What follows the Ethernet header leaves it.
  let start : Writer := ⟨buffer.overwrite 0 (Header.encode a.ethernet), 14⟩
  have hclaimed : start.Extends ⟨start.buffer, 42⟩ := by
    refine ⟨rfl, (by decide : 14 ≤ 42), ?_, rfl⟩
    show 42 ≤ (buffer.overwrite 0 _).length
    rw [Bytes.length_overwrite]
    omega
  have hpayload := hfill _ hclaimed.within
  rw [Action.state_of_ok hfilled] at hpayload
  have hdone := a.keeps_complete (w := start) (Nat.le_refl 14) (by decide : 14 ≤ 34) w₄
    (hclaimed.trans hpayload)
  rw [Action.state_of_ok hcomplete] at hdone
  obtain rfl := complete_eq_ok a hcomplete
  have hfront : start.buffer.take 14 = Header.encode a.ethernet := by
    show (buffer.overwrite 0 (Header.encode a.ethernet)).take 14 = _
    rw [Bytes.overwrite_zero_of_le (by omega), ← hethernet, List.take_left]
  refine ⟨hpayload.position_le, ?_, ?_, hdone.front_eq.trans hfront⟩
  · have hwithin := hpayload.within
    rw [hpayload.length_eq] at hwithin
    simpa [start] using hwithin
  · simpa [start] using hdone.length_eq

end Endpoint.Addressing

end RomCast
