import Gokvm.Rdp.Graphics

/-! # The parsers of client data have no faults

For each parser: every access is inside what is left of the input, and a round of a loop over
blocks leaves strictly less. So every byte string is parsed or refused.
-/

namespace Gokvm.Rdp

open Lib Checked List Parser

namespace Parser

/-! ## Lengths -/

theorem safe_takeBytes (p : Bytes) (n off : Nat) : Safe (takeBytes p n off) fun _ => True := by
  refine safe_guard fun fits => ?_
  refine (safe_slice (by omega)).bind fun value _ => ?_
  refine (safe_sliceFrom (by omega)).bind fun rest _ => ?_
  trivial

theorem safe_takeBER (p : Bytes) (tag : UInt8) : Safe (takeBER p tag) fun _ => True := by
  refine safe_guard fun long => ?_
  refine (safe_index (by omega)).bind fun first _ => ?_
  refine safe_guard fun _ => ?_
  refine (safe_index (by omega)).bind fun second _ => ?_
  refine safe_ite (fun _ => ?_) (fun _ => safe_takeBytes p _ 2)
  refine safe_guard fun digits => ?_
  refine (safe_slice (by omega)).bind fun value _ => ?_
  exact safe_takeBytes p _ _

theorem safe_takePER (p : Bytes) : Safe (takePER p) fun _ => True := by
  refine safe_guard fun some => ?_
  refine (safe_index (by omega)).bind fun first _ => ?_
  refine safe_ite (fun _ => ?_) (fun _ => ?_)
  · refine safe_guard fun long => ?_
    refine (safe_index (by omega)).bind fun second _ => ?_
    refine safe_guard fun _ => ?_
    exact (safe_sliceFrom (by omega)).mono fun _ _ => trivial
  · refine safe_guard fun _ => ?_
    exact (safe_sliceFrom (by omega)).mono fun _ _ => trivial

theorem indexOf_inside (hay needle : Bytes) (found : ¬ indexOf hay needle < 0) :
    indexOf hay needle + needle.length ≤ hay.length := by
  unfold indexOf at found ⊢
  cases search : (range (hay.length + 1)).find? fun i => needle.isPrefixOf (hay.drop i) with
  | none =>
    rw [search] at found
    exact absurd (by decide : (-1 : Int) < 0) found
  | some i =>
    have inside := mem_range.mp (mem_of_find?_eq_some search)
    have starts := find?_some search
    have occurs : needle <+: hay.drop i := isPrefixOf_iff_prefix.mp starts
    have short := occurs.length_le
    rw [length_drop] at short
    simp only
    omega

/-! ## Connect Initial -/

theorem safe_staticChannel (c : ClientSettings) (name : Bytes) (channel : Nat) :
    Safe (c.staticChannel name channel) fun _ => True := by
  unfold ClientSettings.staticChannel
  refine safe_ite (fun _ => ?_) (fun _ => safe_ite (fun _ => ?_) fun _ => trivial)
  · exact safe_guard fun _ => trivial
  · exact safe_guard fun _ => trivial

theorem safe_coreSecured (payload : Bytes) : Safe (coreSecured payload) fun _ => True := by
  refine safe_ite (fun _ => trivial) (fun long => ?_)
  exact safe_field (by omega) fun _ => trivial

theorem safe_coreGraphics (payload : Bytes) (graphics : Bool) :
    Safe (coreGraphics payload graphics) fun _ => True := by
  refine safe_ite (fun _ => trivial) (fun long => ?_)
  exact safe_field (by omega) fun _ => trivial

theorem safe_coreBlock (b : Blocks) (payload : Bytes) :
    Safe (coreBlock b payload) fun after => after.rest = b.rest := by
  refine safe_guard fun long => ?_
  refine (safe_coreSecured payload).bind fun secured _ => ?_
  refine safe_guard fun _ => ?_
  refine (safe_coreGraphics payload _).bind fun graphics _ => ?_
  refine safe_field (by omega) fun width => ?_
  refine safe_field (by omega) fun height => ?_
  exact safe_pure rfl

theorem safe_networkBlock (b : Blocks) (payload : Bytes) :
    Safe (networkBlock b payload) fun after => after.rest = b.rest := by
  refine safe_guard fun long => ?_
  refine (safe_little (by omega)).bind fun count _ => ?_
  refine safe_guard fun exact => ?_
  refine (safe_times (I := fun _ => True) (fun i settings inside _ => ?_) b.settings trivial).bind
    fun settings _ => safe_pure rfl
  refine (safe_slice (by omega)).bind fun name _ => ?_
  exact safe_staticChannel settings (trimRight name) (1004 + i)

theorem safe_gccPayload (b : Blocks) (kind : Nat) (payload : Bytes) :
    Safe (gccPayload b kind payload) fun after => after.rest = b.rest := by
  refine safe_ite (fun _ => safe_coreBlock b payload) (fun _ => ?_)
  exact safe_ite (fun _ => safe_networkBlock b payload) (fun _ => safe_pure rfl)

/-- A round over the GCC blocks gets ahead by at least four bytes. -/
theorem safe_gccBlock (b : Blocks) : Safe (gccBlock b) fun after => after.rest.length < b.rest.length := by
  refine safe_guard fun long => ?_
  refine (safe_little (by omega)).bind fun kind _ => ?_
  refine safe_field (by omega) fun size => ?_
  refine safe_guard fun fits => ?_
  refine (safe_slice (by omega)).bind fun payload _ => ?_
  refine (safe_gccPayload b kind payload).bind fun after same => ?_
  refine (safe_sliceFrom ⟨by omega, by rw [same]; omega⟩).bind fun rest shorter => safe_pure ?_
  rw [same] at shorter
  show rest.length < b.rest.length
  omega

theorem safe_gccBlocks (blocks : Bytes) : Safe (gccBlocks blocks) fun _ => True := by
  refine safe_loopWhile (fun b : Blocks => b.rest.length) (fun b _ more => ?_) (fun b _ _ => ?_) _ _
    trivial le_rfl
  · exact of_decide_eq_true more
  · exact (safe_gccBlock b).mono fun _ shorter => ⟨trivial, shorter⟩

theorem safe_skipFields (tags : List UInt8) (body : Bytes) : Safe (skipFields tags body) fun _ => True := by
  induction tags generalizing body with
  | nil => trivial
  | cons tag tags ih => exact (safe_takeBER body tag).bind fun field _ => ih field.2

theorem safe_parseConnectInitialDetails (p : Bytes) :
    Safe (parseConnectInitialDetails p) fun _ => True := by
  refine safe_guard fun long => ?_
  refine (safe_index (by omega)).bind fun first _ => ?_
  refine safe_guard fun _ => ?_
  refine (safe_sliceFrom (by omega)).bind fun after _ => ?_
  refine (safe_attempt (safe_takeBER after 0x65)).bind fun outer _ => ?_
  split
  · refine (safe_skipFields _ _).bind fun body _ => ?_
    refine (safe_attempt (safe_takeBER body 4)).bind fun envelope _ => ?_
    split
    next gcc =>
      refine safe_guard fun found => ?_
      have inside := indexOf_inside _ _ found
      simp only [length_cons, length_nil] at inside
      refine (safe_sliceFrom (by omega)).bind fun user _ => ?_
      refine (safe_takePER user).bind fun blocks _ => ?_
      refine (safe_gccBlocks blocks).bind fun done _ => ?_
      exact safe_ite (fun _ => trivial) (fun _ => safe_refuse)
    · exact safe_refuse
  · exact safe_refuse

/-! ## Client Info -/

variable {p : Bytes} {n : Nat}

theorem safe_infoString (long : 22 ≤ p.length) {terminator i off : Nat} (field : i < 5) :
    Safe (infoString p terminator i off) fun after => after ≤ p.length := by
  refine safe_field (by omega) fun n => ?_
  refine safe_guard fun fits => ?_
  refine (safe_slice (by omega)).bind fun tail _ => ?_
  refine safe_guard fun _ => safe_pure ?_
  omega

theorem safe_validateClientInfo (p : Bytes) : Safe (validateClientInfo p) fun _ => True := by
  refine safe_guard fun long => ?_
  refine safe_field (by omega) fun security => ?_
  refine safe_guard fun _ => ?_
  refine safe_field (by omega) fun flags => ?_
  refine (safe_times (I := fun off => off ≤ p.length) (fun i off below _ => ?_) 22 (by omega)).bind
    fun _ _ => trivial
  exact safe_infoString (by omega) below

/-! ## Confirm Active -/

theorem safe_bitmapCapability {update : Bool} {kind : Nat} {c : Capabilities} (inside : c.off + n ≤ p.length) :
    Safe (bitmapCapability p update kind n c) fun after => after.off = c.off := by
  refine safe_ite (fun _ => safe_pure rfl) (fun _ => ?_)
  refine safe_guard fun fits => ?_
  refine safe_field (by omega) fun bpp => ?_
  refine safe_guard fun _ => ?_
  refine safe_ite (fun _ => safe_pure rfl) (fun _ => ?_)
  exact safe_guard fun _ => safe_pure rfl

theorem safe_pointerAlpha {off alpha : Nat} (inside : off + n ≤ p.length) :
    Safe (pointerAlpha p n off alpha) fun _ => True := by
  refine safe_ite (fun _ => trivial) (fun wide => ?_)
  refine (safe_slice (by omega)).bind fun field length => ?_
  exact (safe_little (by omega)).mono fun _ _ => trivial

theorem safe_pointerCapability {kind : Nat} {c : Capabilities} (inside : c.off + n ≤ p.length) :
    Safe (pointerCapability p kind n c) fun after => after.off = c.off := by
  refine safe_ite (fun _ => safe_pure rfl) (fun _ => ?_)
  refine safe_guard fun fits => ?_
  refine safe_field (by omega) fun colors => ?_
  exact (safe_pointerAlpha inside).bind fun _ _ => safe_pure rfl

/-- A round over the capability sets stays in the PDU. -/
theorem safe_capability (update : Bool) (c : Capabilities) :
    Safe (capability p update c) fun after => after.off ≤ p.length ∧ c.off < after.off := by
  refine safe_guard fun head => ?_
  refine safe_field (by omega) fun kind => ?_
  refine safe_field (by omega) fun n => ?_
  refine safe_guard fun fits => ?_
  refine (safe_bitmapCapability (by omega)).bind fun b same => ?_
  refine (safe_pointerCapability (by omega)).bind fun after also => safe_pure ?_
  simp only
  omega

theorem safe_confirmActiveDepth (p : Bytes) (bitsPerPixel : Nat) (update : Bool) :
    Safe (confirmActiveDepth p bitsPerPixel update) fun _ => True := by
  refine safe_guard fun long => ?_
  refine safe_field (by omega) fun share => ?_
  refine safe_guard fun _ => ?_
  refine safe_field (by omega) fun source => ?_
  refine safe_field (by omega) fun size => ?_
  refine safe_guard fun fits => ?_
  refine safe_field (by omega) fun count => ?_
  refine (safe_times (I := fun _ => True) (fun i c _ _ => ?_) _ trivial).bind fun c _ => ?_
  · exact (safe_capability update c).mono fun _ _ => trivial
  · exact safe_guard fun _ => trivial

/-! ## Graphics -/

theorem safe_considerSet {o : Offer} (version : Nat) {size : Nat} (inside : 8 + size ≤ o.rest.length) :
    Safe (considerSet o version size) fun after => after.rest = o.rest := by
  refine safe_ite (fun _ => safe_pure rfl) (fun four => ?_)
  refine safe_field (by omega) fun flags => safe_pure ?_
  unfold Offer.consider
  split
  · rfl
  · split <;> rfl

/-- A round over the graphics capability sets gets ahead by at least eight bytes. -/
theorem safe_graphicsCapability (o : Offer) :
    Safe (graphicsCapability o) fun after => after.rest.length < o.rest.length := by
  refine safe_guard fun long => ?_
  refine (safe_little (by omega)).bind fun version _ => ?_
  refine safe_field (by omega) fun size => ?_
  refine safe_guard fun fits => ?_
  refine (safe_considerSet version (by omega)).bind fun after same => ?_
  refine (safe_sliceFrom ⟨by omega, by rw [same]; omega⟩).bind fun rest shorter => safe_pure ?_
  rw [same] at shorter
  show rest.length < o.rest.length
  omega

theorem safe_selectGraphicsCapabilities (data : Bytes) :
    Safe (selectGraphicsCapabilities data) fun _ => True := by
  refine safe_guard fun long => ?_
  refine (safe_little (by omega)).bind fun count _ => ?_
  refine safe_guard fun _ => ?_
  refine (safe_sliceFrom (by omega)).bind fun rest _ => ?_
  refine (safe_times (I := fun _ => True) (fun i o _ _ => ?_) _ trivial).bind fun o _ => ?_
  · exact (safe_graphicsCapability o).mono fun _ _ => trivial
  · exact safe_guard fun _ => trivial

end Parser

/-- A PDU of a graphics message takes at least eight bytes of it. -/
theorem safe_nextGraphicsPDU (data : Bytes) :
    Safe (nextGraphicsPDU data) fun pdu => pdu.2.2.length < data.length := by
  refine safe_guard fun long => ?_
  refine safe_field (by omega) fun size => ?_
  refine safe_field (by omega) fun flags => ?_
  refine safe_guard fun fits => ?_
  refine (safe_little (by omega)).bind fun command _ => ?_
  refine (safe_slice (by omega)).bind fun payload _ => ?_
  refine (safe_sliceFrom (by omega)).bind fun rest shorter => safe_pure ?_
  show rest.length < data.length
  omega

/-- A reader without faults, from a given state. -/
def Sound {α : Type} (m : GraphicsReader α) (g : GraphicsState) : Prop := Safe (m g).1 fun _ => True

theorem sound_bind {α β : Type} {m : GraphicsReader α} {f : α → GraphicsReader β} {g : GraphicsState}
    {P : α → Prop} (head : Safe (m g).1 P) (tail : ∀ a g', P a → Sound (f a) g') : Sound (m >>= f) g := by
  unfold Sound at tail ⊢
  simp only [bind]
  generalize m g = outcome at head ⊢
  obtain ⟨result, g'⟩ := outcome
  cases result with
  | ok a => exact tail a g' head
  | error stop =>
    cases stop with
    | refused reason => trivial
    | panic | stuck => exact head.elim

theorem sound_writing (writes : Bool) (g : GraphicsState) : Sound (writing writes) g := by
  cases writes <;> trivial

theorem sound_readGraphicsPDU (command : Nat) (data : Bytes) (now : Int) (writes : Bool)
    (g : GraphicsState) : Sound (readGraphicsPDU command data now writes) g := by
  unfold readGraphicsPDU
  split
  · refine sound_bind (P := fun _ => True) trivial fun g _ _ => ?_
    split
    · trivial
    · refine sound_bind (safe_selectGraphicsCapabilities data) fun selected _ _ => ?_
      split
      · exact sound_bind (P := fun _ => True) trivial fun _ _ _ => sound_writing _ _
      · exact sound_bind (sound_writing _ _) fun _ _ _ => trivial
  · refine sound_bind (P := fun state => state = g) rfl fun state _ same => ?_
    split
    · trivial
    next valid =>
      simp only [Bool.or_eq_true, Bool.not_eq_true', bne_iff_ne, ne_eq, not_or, not_not] at valid
      refine sound_bind (safe_little (by omega)) fun queueDepth _ _ => ?_
      split
      · trivial
      · refine sound_bind (P := fun _ => True) trivial fun _ _ _ => ?_
        refine sound_bind (safe_sliceFrom (by omega)) fun field _ length => ?_
        exact sound_bind (safe_little (by omega)) fun _ _ _ => trivial
  · split
    · trivial
    · refine sound_bind (safe_little (by omega)) fun count _ _ => ?_
      split
      · trivial
      · exact sound_writing _ _
  · split <;> trivial
  · trivial

theorem sound_readGraphicsFor (now : Int) (writes : Bool) (fuel : Nat) :
    ∀ (data : Bytes) (g : GraphicsState), data.length ≤ fuel → Sound (readGraphicsFor now writes fuel data) g := by
  induction fuel with
  | zero =>
    intro data g enough
    unfold readGraphicsFor
    rw [if_pos (by omega)]
    trivial
  | succ fuel ih =>
    intro data g enough
    unfold readGraphicsFor
    split
    · trivial
    · refine sound_bind (safe_nextGraphicsPDU data) fun pdu _ shorter => ?_
      refine sound_bind (sound_readGraphicsPDU _ _ now writes _) fun _ _ _ => ?_
      exact ih _ _ (by omega)

/-- Every byte string that a client can send is parsed or refused: no parser reads outside its
    input, and a round of a loop over blocks that does not refuse leaves strictly less to do. -/
theorem client_parsers_total (p : Bytes) :
    (Total (parseConnectInitialDetails p) ∧ Total (Parser.validateClientInfo p) ∧
      (∀ bitsPerPixel update, Total (confirmActiveDepth p bitsPerPixel update)) ∧
      Total (Parser.selectGraphicsCapabilities p) ∧
      ∀ g now writes, Total (readGraphics p now writes g).1) ∧
    (∀ b, Safe (gccBlock b) fun after => after.rest.length < b.rest.length) ∧
    (∀ update c, Safe (capability p update c) fun after => after.off ≤ p.length ∧ c.off < after.off) ∧
    (∀ o, Safe (graphicsCapability o) fun after => after.rest.length < o.rest.length) ∧
    ∀ data, Safe (nextGraphicsPDU data) fun pdu => pdu.2.2.length < data.length := by
  refine ⟨⟨?_, ?_, ?_, ?_, ?_⟩, safe_gccBlock, safe_capability,
    safe_graphicsCapability, safe_nextGraphicsPDU⟩
  · exact (safe_parseConnectInitialDetails p).total
  · exact (safe_validateClientInfo p).total
  · exact fun bitsPerPixel update => (safe_confirmActiveDepth p bitsPerPixel update).total
  · exact (safe_selectGraphicsCapabilities p).total
  · exact fun g now writes => (sound_readGraphicsFor now writes p.length p g le_rfl).total

end Gokvm.Rdp
