import Gokvm.Virtio.Framebuffer

/-! # Updates for a VNC client

A client asks for parts of the screen. The writer of its connection answers one request at
a time; an incremental one waits while the frame is the one it sent last. It remembers one
number for the whole screen, whatever part it sent.
-/

namespace Gokvm.Virtio

open Lib Nat List

/-! ## Messages -/

structure RfbPixelFormat where
  bitsPerPixel : UInt8
  bigEndian : Bool
  redMax : UInt16
  greenMax : UInt16
  blueMax : UInt16
  redShift : UInt8
  greenShift : UInt8
  blueShift : UInt8
deriving DecidableEq

def defaultRFBPixelFormat : RfbPixelFormat where
  bitsPerPixel := 32
  bigEndian := false
  redMax := 255
  greenMax := 255
  blueMax := 255
  redShift := 16
  greenShift := 8
  blueShift := 0

def RfbPixelFormat.bytesPerPixel (pf : RfbPixelFormat) : Nat := pf.bitsPerPixel.toNat / 8

def scaledChannel (v : UInt8) (max : UInt16) : UInt32 := v.toUInt32 * max.toUInt32 / 255

/-- A shift by 32 bits or more leaves nothing. -/
def shifted (v : UInt32) (shift : UInt8) : UInt32 := UInt32.ofNat (v.toNat <<< shift.toNat)

/-- `putPixel` into `n` zeroed bytes. -/
def putPixel (n : Nat) (pixel : UInt32) (bigEndian : Bool) : Bytes :=
  if n = 1 ∨ n = 2 ∨ n = 4 then
    if bigEndian then beBytes n pixel.toNat else leBytes n pixel.toNat
  else replicate n 0

def encodePixel (frame : VncFrame) (pf : RfbPixelFormat) (x y : Nat) : Bytes :=
  let src := (y * frame.width + x) * 4
  let channel (k : Nat) : UInt8 := if src + 3 ≤ frame.pix.size then frame.pix.byte (src + k) else 0
  putPixel pf.bytesPerPixel
    (shifted (scaledChannel (channel 0) pf.redMax) pf.redShift |||
      shifted (scaledChannel (channel 1) pf.greenMax) pf.greenShift |||
      shifted (scaledChannel (channel 2) pf.blueMax) pf.blueShift) pf.bigEndian

def encodeRawPixels (frame : VncFrame) (pf : RfbPixelFormat) (x y width height : Nat) : Bytes :=
  (range height).flatMap fun row =>
    (range width).flatMap fun col => encodePixel frame pf (x + col) (y + row)

def rfbEncodingRaw : Nat := 0

def rfbEncodingCursor : Nat := 0xffffff11

def encodeCursorPseudoRect (pf : RfbPixelFormat) : Bytes :=
  [0, 0, 0, 0] ++ beBytes 2 1 ++ beBytes 2 1 ++ beBytes 4 rfbEncodingCursor ++
    replicate (pf.bytesPerPixel + 1) 0

structure VncUpdateRequest where
  incremental : Bool
  x : UInt16
  y : UInt16
  width : UInt16
  height : UInt16
  pf : RfbPixelFormat := defaultRFBPixelFormat
  cursor : Bool := false
deriving DecidableEq

def writeFramebufferUpdate (frame : VncFrame) (r : VncUpdateRequest) : Bytes :=
  let x := r.x.toNat
  let y := r.y.toNat
  if x ≥ frame.width ∨ y ≥ frame.height ∨ r.width = 0 ∨ r.height = 0 then
    if r.cursor then [0, 0, 0, 1] ++ encodeCursorPseudoRect r.pf else [0, 0, 0, 0]
  else
    let width := min r.width.toNat (frame.width - x)
    let height := min r.height.toNat (frame.height - y)
    [0, 0] ++ beBytes 2 (if r.cursor then 2 else 1) ++ beBytes 2 x ++ beBytes 2 y ++ beBytes 2 width ++
      beBytes 2 height ++ beBytes 4 rfbEncodingRaw ++ encodeRawPixels frame r.pf x y width height ++
      if r.cursor then encodeCursorPseudoRect r.pf else []

/-! ## The client -/

/-- A pixel of the client, in the format it was sent in. -/
structure Shown where
  pf : RfbPixelFormat
  bytes : Bytes

/-- The pixels of a client after a message. -/
def draw (client : Nat → Nat → Option Shown) (pf : RfbPixelFormat) (message : Bytes) (x y : Nat) :
    Option Shown :=
  let field (i : Nat) : Nat := beNat (part message i 2)
  let left := field 4
  let top := field 6
  let width := field 8
  let height := field 10
  if 0 < field 2 ∧ beNat (part message 12 4) = rfbEncodingRaw ∧ left ≤ x ∧ x < left + width ∧
      top ≤ y ∧ y < top + height then
    some ⟨pf, part message (16 + ((y - top) * width + (x - left)) * pf.bytesPerPixel) pf.bytesPerPixel⟩
  else client x y

def VncUpdateRequest.Covers (r : VncUpdateRequest) (x y : Nat) : Prop :=
  r.x.toNat ≤ x ∧ x < r.x.toNat + r.width.toNat ∧ r.y.toNat ≤ y ∧ y < r.y.toNat + r.height.toNat

instance (r : VncUpdateRequest) (x y : Nat) : Decidable (r.Covers x y) := by
  unfold VncUpdateRequest.Covers
  infer_instance

theorem length_putPixel (n : Nat) (pixel : UInt32) (bigEndian : Bool) :
    (putPixel n pixel bigEndian).length = n := by
  unfold putPixel
  split
  · split
    · exact beBytes_length n _
    · exact leBytes_length n _
  · exact length_replicate

theorem part_encodeRawPixels (frame : VncFrame) (pf : RfbPixelFormat) (x y : Nat)
    {width height row col : Nat} (column : col < width) (line : row < height) (rest : Bytes) :
    part (encodeRawPixels frame pf x y width height ++ rest) ((row * width + col) * pf.bytesPerPixel)
      pf.bytesPerPixel = encodePixel frame pf (x + col) (y + row) := by
  have pixel (col row : Nat) : (encodePixel frame pf (x + col) (y + row)).length = pf.bytesPerPixel :=
    length_putPixel _ _ _
  have span (row : Nat) : ((range width).flatMap fun col =>
      encodePixel frame pf (x + col) (y + row)).length = width * pf.bytesPerPixel := by
    simp [length_flatMap, pixel]
  have inRow : col * pf.bytesPerPixel + pf.bytesPerPixel ≤ width * pf.bytesPerPixel := by
    rw [← succ_mul]
    exact mul_le_mul_right _ column
  have whole (bs : Bytes) : part bs 0 bs.length = bs := by simp [part]
  rw [add_mul, mul_assoc, ← part_part _ _ inRow, encodeRawPixels,
    part_flatMap (fun row _ => span row) (getElem?_range line) le_rfl, ← span row, whole,
    ← append_nil (flatMap _ _), part_flatMap (fun col _ => pixel col row)
      (getElem?_range column) le_rfl, ← pixel col row, whole]

theorem message_fields (rects x y width height : Nat) (rest : Bytes) :
    let message := [0, 0] ++ beBytes 2 rects ++ beBytes 2 x ++ beBytes 2 y ++ beBytes 2 width ++
      beBytes 2 height ++ beBytes 4 rfbEncodingRaw ++ rest
    beNat (part message 2 2) = rects % 2 ^ 16 ∧ beNat (part message 4 2) = x % 2 ^ 16 ∧
      beNat (part message 6 2) = y % 2 ^ 16 ∧ beNat (part message 8 2) = width % 2 ^ 16 ∧
      beNat (part message 10 2) = height % 2 ^ 16 ∧ beNat (part message 12 4) = rfbEncodingRaw ∧
      ∀ off n, part message (16 + off) n = part rest off n := by
  refine ⟨beNat_beBytes 2 rects, beNat_beBytes 2 x, beNat_beBytes 2 y, beNat_beBytes 2 width,
    beNat_beBytes 2 height, beNat_beBytes 4 rfbEncodingRaw, fun off n => ?_⟩
  exact part_append_right _ rest off n

/-- Without pixels there is at most the shape of the cursor. -/
theorem draw_nothing (client : Nat → Nat → Option Shown) (pf : RfbPixelFormat) (cursor : Bool) :
    draw client pf (if cursor then [0, 0, 0, 1] ++ encodeCursorPseudoRect pf else [0, 0, 0, 0]) =
      client := by
  funext x y
  unfold draw
  refine if_neg fun shown => ?_
  obtain ⟨some, raw, _⟩ := shown
  cases cursor with
  | false =>
    have rects : 0 < beNat [0, 0] := some
    exact absurd rects (by decide)
  | true =>
    have shape : beNat (beBytes 4 rfbEncodingCursor) = rfbEncodingRaw := raw
    exact absurd shape (by decide)

/-- A message shows the pixels of the frame that the request covers. -/
theorem draw_writeFramebufferUpdate (client : Nat → Nat → Option Shown) (frame : VncFrame)
    (r : VncUpdateRequest) (x y : Nat) :
    draw client r.pf (writeFramebufferUpdate frame r) x y =
      if r.Covers x y ∧ x < frame.width ∧ y < frame.height then
        some ⟨r.pf, encodePixel frame r.pf x y⟩
      else client x y := by
  have wide := r.width.toNat_lt
  have high := r.height.toNat_lt
  have left := r.x.toNat_lt
  have top := r.y.toNat_lt
  unfold VncUpdateRequest.Covers writeFramebufferUpdate
  simp only [← UInt16.toNat_inj, UInt16.toNat_zero]
  by_cases none : r.x.toNat ≥ frame.width ∨ r.y.toNat ≥ frame.height ∨ r.width.toNat = 0 ∨
      r.height.toNat = 0
  · rw [if_pos none, draw_nothing, if_neg (by omega)]
  · rw [if_neg none, append_assoc]
    obtain ⟨rects, fields⟩ := message_fields (if r.cursor then 2 else 1) r.x.toNat r.y.toNat
      (min r.width.toNat (frame.width - r.x.toNat)) (min r.height.toNat (frame.height - r.y.toNat))
      (encodeRawPixels frame r.pf r.x.toNat r.y.toNat (min r.width.toNat (frame.width - r.x.toNat))
        (min r.height.toNat (frame.height - r.y.toNat)) ++
        if r.cursor then encodeCursorPseudoRect r.pf else [])
    obtain ⟨atX, atY, atWidth, atHeight, raw, pixels⟩ := fields
    rw [mod_eq_of_lt (by omega)] at atX atY atWidth atHeight
    have some : 0 < (if r.cursor then 2 else 1) % 2 ^ 16 := by cases r.cursor <;> decide
    simp only [draw, rects, atX, atY, atWidth, atHeight, raw, pixels, some, true_and]
    split
    next inside =>
      rw [part_encodeRawPixels frame r.pf _ _ (by omega) (by omega), if_pos (by omega),
        Nat.add_sub_cancel' inside.1, Nat.add_sub_cancel' inside.2.2.1]
    · rw [if_neg (by omega)]

/-! ## The connection -/

def Framebuffer.snapshot (d : Framebuffer) : VncFrame :=
  { width := d.width, height := d.height, pix := d.frame, seq := d.seq }

/-- `frameForRequestUntil`: no frame while the request has to wait. -/
def frameForRequestUntil (d : Framebuffer) (incremental : Bool) (lastSeq : UInt64) : Option VncFrame :=
  if incremental ∧ d.seq = lastSeq then none else some d.snapshot

inductive VncWriter where
  | idle
  | waiting (r : VncUpdateRequest)
  | writing (r : VncUpdateRequest) (frame : VncFrame)

def VncWriter.waitsFor : VncWriter → Option VncUpdateRequest
  | .waiting r => some r
  | _ => none

/-- A connection: the channel of requests, its writer, the client's pixels and the requests
    answered. -/
structure VncSession where
  display : Framebuffer := newFramebuffer
  queued : Option VncUpdateRequest := none
  writer : VncWriter := .idle
  lastSeq : UInt64 := 0
  client : Nat → Nat → Option Shown := fun _ _ => none
  answered : List (VncUpdateRequest × VncFrame) := []

inductive VncEvent where
  | flush (width height : Int) (img : Option RGBA)
  | request (r : VncUpdateRequest)
  | write

namespace VncSession

/-- The next step of `writeFramebufferUpdates`. -/
def write (s : VncSession) : VncSession :=
  match s.writer with
  | .idle => match s.queued with
    | none => s
    | some r => { s with queued := none, writer := .waiting r }
  | .waiting r => match frameForRequestUntil s.display r.incremental s.lastSeq with
    | none => s
    | some frame => { s with writer := .writing r frame }
  | .writing r frame =>
    { s with
        writer := .idle
        lastSeq := frame.seq
        client := draw s.client r.pf (writeFramebufferUpdate frame r)
        answered := (r, frame) :: s.answered }

/-- A request that finds the channel full is dropped. -/
def act (s : VncSession) : VncEvent → VncSession
  | .flush width height img => match s.display.flush width height img with
    | .ok display => { s with display }
    | .error _ => s
  | .request r => if s.queued.isSome then s else { s with queued := some r }
  | .write => s.write

def run (s : VncSession) (events : List VncEvent) : VncSession := events.foldl act s

def flushes : List VncEvent → Nat
  | [] => 0
  | .flush _ _ _ :: rest => flushes rest + 1
  | _ :: rest => flushes rest

/-- An incremental request that the writer does not answer. -/
def LeftWaiting (s : VncSession) (r : VncUpdateRequest) : Prop :=
  s.writer.waitsFor = some r ∧ r.incremental = true ∧ s.display.seq = s.lastSeq

instance (s : VncSession) (r : VncUpdateRequest) : Decidable (s.LeftWaiting r) := by
  unfold LeftWaiting
  infer_instance

/-- The client shows a pixel of the current frame. -/
def UpToDate (s : VncSession) (x y : Nat) : Prop :=
  ∃ p ∈ s.client x y, p.bytes = encodePixel s.display.snapshot p.pf x y

instance (s : VncSession) (x y : Nat) : Decidable (s.UpToDate x y) := by
  unfold UpToDate
  infer_instance

/-- Frames of answers are no newer than the current one, the only one of its number. -/
structure Consistent (s : VncSession) (count : Nat) : Prop where
  seq : s.display.seq.toNat ≤ count
  older : ∀ a ∈ s.answered, a.2.seq.toNat ≤ s.display.seq.toNat
  writing : ∀ r frame, s.writer = .writing r frame →
    frame.seq.toNat ≤ s.display.seq.toNat ∧ (frame.seq = s.display.seq → frame = s.display.snapshot) ∧
      ∀ a ∈ s.answered, a.2.seq.toNat ≤ frame.seq.toNat
  current : ∀ a ∈ s.answered, a.2.seq = s.display.seq → ∀ x y, a.1.Covers x y → x < s.display.width →
    y < s.display.height → s.UpToDate x y

theorem markFrameDamage_seq (d : Framebuffer) (damage : Option (List Rect)) :
    (d.markFrameDamage damage).seq = d.seq := by
  unfold Framebuffer.markFrameDamage
  split
  · rfl
  · cases damage <;> rfl

theorem flush_cases {d e : Framebuffer} {width height : Int} {img : Option RGBA}
    (done : d.flush width height img = .ok e) : e = d ∨ e.seq = d.seq + 1 := by
  unfold Framebuffer.flush at done
  cases image : checked width height img with
  | error => simp [image, Except.map] at done
  | ok shown =>
    rw [image] at done
    cases shown with
    | none => exact .inl (Except.ok.inj done).symm
    | some img =>
      cases done
      exact .inr (markFrameDamage_seq _ _)

theorem Consistent.initial : Consistent {} 0 where
  seq := le_refl 0
  older := nofun
  writing := nofun
  current := nofun

section

variable {s : VncSession} {count : Nat} (consistent : s.Consistent count)
include consistent

theorem Consistent.more : s.Consistent (count + 1) :=
  { consistent with seq := le_succ_of_le consistent.seq }

/-- The number of a new frame is larger than that of every frame there was. -/
theorem Consistent.newFrame {display : Framebuffer}
    (next : display.seq.toNat = s.display.seq.toNat + 1) : { s with display }.Consistent (count + 1) where
  seq := by
    rw [next]
    exact succ_le_succ consistent.seq
  older a member := by
    rw [next]
    exact le_succ_of_le (consistent.older a member)
  writing r frame writes := by
    obtain ⟨older, _, last⟩ := consistent.writing r frame writes
    refine ⟨by rw [next]; omega, fun same => ?_, last⟩
    rw [same, next] at older
    exact absurd older (not_succ_le_self _)
  current a member same := by
    have older := consistent.older a member
    rw [same, next] at older
    exact absurd older (not_succ_le_self _)

theorem Consistent.flush (few : count + 1 < 2 ^ 64) (width height : Int) (img : Option RGBA) :
    (s.act (.flush width height img)).Consistent (count + 1) := by
  simp only [act]
  cases flushed : s.display.flush width height img with
  | error => exact consistent.more
  | ok display =>
    rcases flush_cases flushed with rfl | new
    · exact consistent.more
    · have seq := consistent.seq
      refine consistent.newFrame ?_
      rw [new, UInt64.toNat_add]
      exact mod_eq_of_lt (lt_of_le_of_lt (succ_le_succ seq) few)

theorem Consistent.answer {r : VncUpdateRequest} {frame : VncFrame}
    (writes : s.writer = .writing r frame) : s.write.Consistent count := by
  obtain ⟨older, unchanged, last⟩ := consistent.writing r frame writes
  simp only [write, writes]
  refine ⟨consistent.seq, ?_, nofun, ?_⟩
  · rintro a (_ | ⟨_, member⟩)
    · exact older
    · exact consistent.older a member
  · intro a member same x y covers column row
    change ∃ p ∈ draw s.client r.pf (writeFramebufferUpdate frame r) x y,
      p.bytes = encodePixel s.display.snapshot p.pf x y
    rw [draw_writeFramebufferUpdate]
    -- an answer with the current number comes with the current frame
    have now : frame = s.display.snapshot := by
      rcases member with _ | ⟨_, member⟩
      · exact unchanged same
      · have before := last a member
        rw [same] at before
        exact unchanged (UInt64.toNat_inj.mp (le_antisymm older before))
    subst now
    split
    · exact ⟨_, rfl, rfl⟩
    next missed =>
      rcases member with _ | ⟨_, member⟩
      · exact absurd ⟨covers, column, row⟩ missed
      · exact consistent.current a member same x y covers column row

theorem Consistent.write : s.write.Consistent count := by
  cases writes : s.writer with
  | writing r frame => exact consistent.answer writes
  | idle =>
    simp only [VncSession.write, writes]
    cases s.queued with
    | none => exact consistent
    | some r => exact { consistent with writing := nofun }
  | waiting r =>
    simp only [VncSession.write, writes, frameForRequestUntil]
    split
    next none =>
      split at none
      · exact consistent
      · cases none
    next frame found =>
      split at found
      · cases found
      · cases found
        refine { consistent with writing := ?_ }
        rintro _ _ ⟨⟩
        exact ⟨le_rfl, fun _ => rfl, consistent.older⟩

end

theorem Consistent.run (events : List VncEvent) :
    ∀ {s : VncSession} {count : Nat}, s.Consistent count → count + flushes events < 2 ^ 64 →
      (s.run events).Consistent (count + flushes events) := by
  induction events with
  | nil => exact fun consistent _ => consistent
  | cons event rest ih =>
    intro s count consistent few
    cases event with
    | flush width height img =>
      have total : flushes (.flush width height img :: rest) = flushes rest + 1 := rfl
      rw [total, add_comm _ 1, ← add_assoc] at few ⊢
      exact ih (consistent.flush (by omega) width height img) few
    | request r =>
      refine ih (s := s.act (.request r)) ?_ few
      simp only [act]
      split
      · exact consistent
      · exact { consistent with }
    | write => exact ih consistent.write few

def dots (left right : UInt8) : RGBA where
  dx := 2
  dy := 1
  stride := 8
  pix := (Store.blank 8).write 0 [left, 0, 0, 0, right]

def wholeScreen (incremental : Bool) : VncUpdateRequest where
  incremental := incremental
  x := 0
  y := 0
  width := 2
  height := 1

def oneDot (x : UInt16) : VncUpdateRequest := { wholeScreen true with x := x, width := 1 }

/-- A frame, and a first update with all of it. -/
def firstUpdate : List VncEvent :=
  [.flush 2 1 (some (dots 1 1)), .request (wholeScreen false), .write, .write, .write]

def secondDot : List VncEvent := firstUpdate ++ [.request (oneDot 1), .write]

/-- A second frame, asked for one dot at a time. -/
def otherDot : List VncEvent :=
  firstUpdate ++ [.flush 2 1 (some (dots 2 2)), .request (oneDot 0), .write, .write, .write,
    .request (oneDot 1), .write]

end VncSession

end Gokvm.Virtio
