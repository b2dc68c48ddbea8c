import Gokvm.Lib.FinMap
import Gokvm.Virtio.Queue
import Gokvm.Virtio.Framebuffer

/-! # The 2D display device

The guest creates resources, points them at its memory, transfers pixels into them, binds one to
the scanout and flushes rectangles of it. A flush converts its pixels into the device's picture of
the desktop and hands that to the display.

Numbers have the widths of the source, so that arithmetic wraps as there. What the display is told
is a list of calls.
-/

namespace Gokvm.Virtio

open Lib

def gpuCtrlHdrLen : Nat := 24

def gpuRectLen : Nat := 16

def gpuNumScanouts : UInt32 := 1

def gpuMaxScanouts : Nat := 16

def gpuDisplayOneLen : Nat := 24

def gpuBytesPerPixel : UInt32 := 4

def gpuDefaultWidth : UInt32 := 1024

def gpuDefaultHeight : UInt32 := 768

def gpuCursorSize : UInt32 := 64

def gpuMaxDimension : UInt32 := 4096

def gpuMaxPixels : UInt64 := 4096 * 2160

def gpuMaxResources : Nat := 1024

def gpuResourceLimit : UInt64 := 256 * 1024 * 1024

def gpuMaxBacking : UInt32 := 8640

/-- One region of guest memory behind a resource. -/
structure GpuMemEntry where
  addr : UInt64
  length : UInt32

structure GpuResource where
  width : UInt32
  height : UInt32
  format : UInt32
  data : Store
  backing : List GpuMemEntry := []

structure GpuCursor where
  image : Option RGBA := none
  x : Int := 0
  y : Int := 0
  hotX : Int := 0
  hotY : Int := 0

/-- Which of the optional interfaces a display has. -/
structure DisplayKind where
  cursorDisplay : Bool
  damageDisplay : Bool
  graphicsResetDisplay : Bool

inductive DisplayCall where
  | flush (width height : Int) (img : RGBA)
  | flushDamage (width height : Int) (img : RGBA) (damage : List Rect)
  | setCursor (cursor : GpuCursor)
  | graphicsReset

structure Gpu where
  width : UInt32
  height : UInt32
  display : Option DisplayKind
  events : UInt32
  resourceBytes : UInt64
  closed : Bool
  resources : FinMap UInt32 GpuResource
  scanout : UInt32
  scanoutRect : Rect
  /-- The last presented scanout, without the cursor. -/
  frame : Option RGBA
  cursor : GpuCursor

def newGPU (display : Option DisplayKind) : Gpu where
  width := gpuDefaultWidth
  height := gpuDefaultHeight
  display := display
  events := 0
  resourceBytes := 0
  closed := false
  resources := ∅
  scanout := 0
  scanoutRect := .zero
  frame := none
  cursor := {}

/-! ## Images -/

/-- `image.NewRGBA` at the origin. -/
def newRGBA (dx dy : Int) : RGBA where
  dx := dx
  dy := dy
  stride := 4 * dx
  pix := Store.blank (dx * dy * 4).toNat

def RGBA.bounds (img : RGBA) : Rect := .whole img.dx img.dy

structure Channels where
  r : Nat
  g : Nat
  b : Nat
  a : Nat
  hasAlpha : Bool

def formatOffsets (format : UInt32) : Channels :=
  if format = 1 then ⟨2, 1, 0, 3, true⟩
  else if format = 2 then ⟨2, 1, 0, 0, false⟩
  else if format = 3 then ⟨1, 2, 3, 0, true⟩
  else if format = 4 then ⟨1, 2, 3, 0, false⟩
  else if format = 67 then ⟨0, 1, 2, 3, true⟩
  else if format = 68 then ⟨3, 2, 1, 0, false⟩
  else if format = 121 then ⟨3, 2, 1, 0, true⟩
  else if format = 134 then ⟨0, 1, 2, 0, false⟩
  else ⟨2, 1, 0, 0, false⟩

def acceptedFormats : List UInt32 := [1, 2, 3, 4, 67, 68, 121, 134]

/-- A cursor takes the unused byte of its pixels for alpha. -/
def GpuResource.channels (res : GpuResource) (cursor : Bool) : Channels :=
  let c := formatOffsets res.format
  if cursor && !c.hasAlpha then { c with a := 6 - c.r - c.g - c.b, hasAlpha := true } else c

/-- `binary.LittleEndian.Uint32`. -/
def uint32OfBytes (b0 b1 b2 b3 : UInt8) : UInt32 :=
  b0.toUInt32 ||| b1.toUInt32 <<< 8 ||| b2.toUInt32 <<< 16 ||| b3.toUInt32 <<< 24

/-- `binary.LittleEndian.PutUint32`. -/
def bytesOfUint32 (v : UInt32) : Bytes :=
  [v.toUInt8, (v >>> 8).toUInt8, (v >>> 16).toUInt8, (v >>> 24).toUInt8]

/-- The conversion of BGRX rows, a word at a time. -/
def convertWords (hasAlpha : Bool) : Bytes → Bytes
  | b0 :: b1 :: b2 :: b3 :: rest =>
    let alpha : UInt32 := if hasAlpha then 0 else 0xff000000
    let pixel := uint32OfBytes b0 b1 b2 b3
    let low : UInt32 := pixel >>> 16 &&& (0xff : UInt32)
    let high : UInt32 := (pixel &&& (0xff : UInt32)) <<< 16
    let rgba := pixel &&& 0xff00ff00 ||| low ||| high ||| alpha
    bytesOfUint32 rgba ++ convertWords hasAlpha rest
  | _ => []

/-- The conversion of the other formats, a channel at a time. -/
def convertChannels (c : Channels) : Bytes → Bytes
  | b0 :: b1 :: b2 :: b3 :: rest =>
    let src := [b0, b1, b2, b3]
    let alpha := if c.hasAlpha then src.getD c.a 0 else 0xff
    [src.getD c.r 0, src.getD c.g 0, src.getD c.b 0, alpha] ++ convertChannels c rest
  | _ => []

def convertRow (c : Channels) (src : Bytes) : Bytes :=
  if c.r = 2 ∧ c.g = 1 ∧ c.b = 0 then convertWords c.hasAlpha src else convertChannels c src

/-- The converted pixels of a row of a resource, from a column on; empty from the row that starts
    past the data on. -/
def GpuResource.convertedRow (res : GpuResource) (cursor : Bool) (left span y : Nat) : Bytes :=
  let si := (y * res.width.toNat + left) * 4
  let pixels := min (span * 4) (res.data.size - si) / 4 * 4
  convertRow (res.channels cursor) (res.data.read si pixels)

/-- `resourceImageRectInto`: converts a rectangle of a resource into an image with pixel (0, 0) at
    the origin and, as of `newRGBA`, four bytes a column. -/
def resourceImageRectInto (res : GpuResource) (cursor : Bool) (img : RGBA) (rect : Rect)
    (originX originY : Int) : RGBA :=
  let rect := (rect.inter (.whole res.width.toNat res.height.toNat)).inter
    (img.bounds.sub (-originX) (-originY))
  let row (y : Nat) := res.convertedRow cursor rect.minX.toNat rect.dx.toNat (y + originY).toNat
  { img with
      pix := blit img.pix img.dx.toNat (rect.minX - originX).toNat row (rect.minY - originY).toNat
        rect.dy.toNat }

def resourceImage (res : GpuResource) (cursor : Bool) : RGBA :=
  let bounds := Rect.whole res.width.toNat res.height.toNat
  resourceImageRectInto res cursor (newRGBA bounds.dx bounds.dy) bounds 0 0

/-- One channel of `draw.Over` with a premultiplied source. -/
def drawOver (dst src alpha : UInt8) : UInt8 :=
  UInt8.ofNat ((dst.toNat * ((65535 - alpha.toNat * 257) * 257) / 65535 + src.toNat * 257) / 256)

/-- The desktop with the cursor drawn over it; the desktop itself is never changed. -/
def compositeCursor (frame : RGBA) (cursor : GpuCursor) : RGBA :=
  match cursor.image with
  | none => frame
  | some image =>
    let rect := (image.bounds.sub (-cursor.x) (-cursor.y)).inter frame.bounds
    if rect.Empty then frame
    else
      let row (y : Nat) := (List.range (rect.dx.toNat * 4)).map fun i =>
        let src := place image.dx.toNat (rect.minX - cursor.x).toNat (y - cursor.y).toNat 0
        drawOver (frame.pix.byte (place frame.dx.toNat rect.minX.toNat y i)) (image.pix.byte (src + i))
          (image.pix.byte (src + i / 4 * 4 + 3))
      { frame with
          pix := blit frame.pix frame.dx.toNat rect.minX.toNat row rect.minY.toNat rect.dy.toNat }

/-! ## What the display is told -/

namespace Gpu

/-- `present`: the cursor alone to displays that draw it, the desktop with it to others. -/
def present (g : Gpu) : List DisplayCall :=
  match g.display with
  | none => []
  | some display =>
    if display.cursorDisplay then [.setCursor g.cursor]
    else match g.frame with
      | none => []
      | some frame =>
        if g.scanout = 0 then []
        else
          let img := compositeCursor frame g.cursor
          [.flush img.dx img.dy img]

def viewport (g : Gpu) (res : GpuResource) : Rect :=
  if g.scanoutRect.Empty then .whole res.width.toNat res.height.toNat else g.scanoutRect

/-- The picture to paint into, and what has to be painted: a new one is painted as a whole. -/
def canvas (g : Gpu) (source damage : Rect) : RGBA × Rect :=
  match g.frame with
  | some frame =>
    if frame.bounds = .whole source.dx source.dy then (frame, damage)
    else (newRGBA source.dx source.dy, source)
  | none => (newRGBA source.dx source.dy, source)

def flushDamage (g : Gpu) (res : GpuResource) (damage : Rect) : Gpu × List DisplayCall :=
  match g.display with
  | none => (g, [])
  | some display =>
    if res.width = 0 ∨ res.height = 0 then (g, [])
    else
      let source := g.viewport res
      let damage := damage.inter source
      if damage.Empty then (g, [])
      else
        let (frame, damage) := g.canvas source damage
        let frame := resourceImageRectInto res false frame damage source.minX source.minY
        let g := { g with frame := some frame }
        if display.cursorDisplay then
          if display.damageDisplay then
            (g, [.flushDamage source.dx source.dy frame [damage.sub source.minX source.minY]])
          else (g, [.flush source.dx source.dy frame])
        else (g, g.present)

end Gpu

/-! ## Transfers -/

/-- `gpuBackingReader`: the regions from a logical offset on. -/
structure GpuBackingReader where
  entries : List GpuMemEntry
  pos : UInt64 := 0

/-- `gpuBackingReader.read`: fills `left` bytes at `start`. Bytes of a region outside guest memory
    stay. -/
def GpuBackingReader.read (mem : Store) :
    (entries : List GpuMemEntry) → (pos off : UInt64) → (start left : Nat) → (data : Store) →
      GpuBackingReader × Store
  | [], pos, _, _, _, data => ({ entries := [], pos }, data)
  | e :: rest, pos, off, start, left, data =>
    if left = 0 then ({ entries := e :: rest, pos }, data)
    else
      let entryEnd := pos + e.length.toUInt64
      if entryEnd ≤ off then read mem rest entryEnd off start left data
      else
        let skip := off - pos
        let n := min (e.length.toUInt64 - skip).toNat left
        let src := (e.addr + skip).toNat
        let data := if validRange mem src n then data.write start (mem.read src n) else data
        -- bytes are left only when the region was used up, and it is then dropped
        if n = left then ({ entries := e :: rest, pos }, data)
        else read mem rest entryEnd (off + UInt64.ofNat n) (start + n) (left - n) data

/-- The rows of a transfer, from row `row` on. -/
def transferRows (mem : Store) (x y w stride : UInt32) (offset : UInt64) :
    (rows : Nat) → (row : UInt32) → GpuBackingReader → Store → Store
  | 0, _, _, data => data
  | rows + 1, row, reader, data =>
    let src := offset + stride.toUInt64 * row.toUInt64
    let dst := ((y + row) * stride + x * gpuBytesPerPixel).toNat
    if data.size ≤ dst then data
    else
      let n := min (w * gpuBytesPerPixel).toNat (data.size - dst)
      let (reader, data) := GpuBackingReader.read mem reader.entries reader.pos src dst n data
      transferRows mem x y w stride offset rows (row + 1) reader data

/-- `transferToHost2D`: the new pixels of a resource. -/
def transferToHost2D (mem : Store) (res : GpuResource) (x y w h : UInt32) (offset : UInt64) : Store :=
  let stride := res.width * gpuBytesPerPixel
  if offset = 0 ∧ x = 0 ∧ y = 0 ∧ w = res.width then
    let total := min (stride.toNat * min h.toNat res.height.toNat) res.data.size
    (GpuBackingReader.read mem res.backing 0 0 0 total res.data).2
  else transferRows mem x y w stride offset h.toNat 0 { entries := res.backing } res.data

/-! ## Control commands -/

inductive GpuResp where
  | okNoData
  | okDisplayInfo
  | errUnspec
  | errOutOfMemory
  | errInvalidScanoutID
  | errInvalidResourceID
  | errInvalidParameter
deriving DecidableEq

def GpuResp.code : GpuResp → Nat
  | okNoData => 0x1100
  | okDisplayInfo => 0x1101
  | errUnspec => 0x1200
  | errOutOfMemory => 0x1201
  | errInvalidScanoutID => 0x1202
  | errInvalidResourceID => 0x1203
  | errInvalidParameter => 0x1205

def uint32At (req : Bytes) (off : Nat) : UInt32 := UInt32.ofNat (leNat (part req off 4))

def uint64At (req : Bytes) (off : Nat) : UInt64 := UInt64.ofNat (leNat (part req off 8))

def respNoData (resp : GpuResp) : Bytes := leBytes 4 resp.code ++ List.replicate (gpuCtrlHdrLen - 4) 0

/-- The device after a command, its response, and what the display was told. -/
structure GpuAnswer where
  gpu : Gpu
  resp : Bytes
  calls : List DisplayCall := []

/-- A rectangle of a request, as the four numbers from `gpuCtrlHdrLen` on. -/
structure GpuRect where
  x : UInt32
  y : UInt32
  w : UInt32
  h : UInt32

def rectOf (req : Bytes) : GpuRect where
  x := uint32At req gpuCtrlHdrLen
  y := uint32At req (gpuCtrlHdrLen + 4)
  w := uint32At req (gpuCtrlHdrLen + 8)
  h := uint32At req (gpuCtrlHdrLen + 12)

/-- The check that the commands on rectangles make. -/
def GpuRect.fits (r : GpuRect) (res : GpuResource) : Bool :=
  !(r.x > res.width || r.y > res.height || r.w > res.width - r.x || r.h > res.height - r.y)

/-- `image.Rect` of the corners; the sums are of 32 bits. -/
def GpuRect.rect (r : GpuRect) : Rect where
  minX := r.x.toNat
  minY := r.y.toNat
  maxX := (r.x + r.w).toNat
  maxY := (r.y + r.h).toNat

namespace Gpu

def answer (g : Gpu) (resp : GpuResp) : GpuAnswer := { gpu := g, resp := respNoData resp }

def cmdGetDisplayInfo (g : Gpu) : GpuAnswer where
  gpu := g
  resp :=
    leBytes 4 GpuResp.okDisplayInfo.code ++ List.replicate (gpuCtrlHdrLen - 4 + 8) 0 ++
      leBytes 4 g.width.toNat ++ leBytes 4 g.height.toNat ++ leBytes 4 1 ++
      List.replicate (4 + (gpuMaxScanouts - 1) * gpuDisplayOneLen) 0

def cmdResourceCreate2D (g : Gpu) (req : Bytes) : GpuAnswer :=
  if req.length < gpuCtrlHdrLen + 16 then g.answer .errUnspec
  else
    let id := uint32At req gpuCtrlHdrLen
    let format := uint32At req (gpuCtrlHdrLen + 4)
    let width := uint32At req (gpuCtrlHdrLen + 8)
    let height := uint32At req (gpuCtrlHdrLen + 12)
    let pixels := width.toUInt64 * height.toUInt64
    let bytes := pixels * gpuBytesPerPixel.toUInt64
    if id = 0 ∨ (g.resources.lookup id).isSome then g.answer .errInvalidResourceID
    else if width = 0 ∨ height = 0 ∨ width > gpuMaxDimension ∨ height > gpuMaxDimension ∨
        pixels > gpuMaxPixels then g.answer .errInvalidParameter
    else if format ∉ acceptedFormats then g.answer .errInvalidParameter
    else if bytes > gpuResourceLimit - g.resourceBytes ∨ g.resources.entries.length ≥ gpuMaxResources then
      g.answer .errOutOfMemory
    else
      let res : GpuResource := { width, height, format, data := Store.blank bytes.toNat }
      { g with
          resources := g.resources.insert id res
          resourceBytes := g.resourceBytes + bytes }.answer .okNoData

def cmdResourceUnref (g : Gpu) (req : Bytes) : GpuAnswer :=
  if req.length < gpuCtrlHdrLen + 8 then g.answer .errUnspec
  else
    let id := uint32At req gpuCtrlHdrLen
    match g.resources.lookup id with
    | none => g.answer .okNoData
    | some res =>
      let g :=
        { g with
            resourceBytes := g.resourceBytes - UInt64.ofNat res.data.size
            resources := g.resources.erase id }
      if g.scanout = id then
        { g with scanout := 0, scanoutRect := .zero, frame := none }.answer .okNoData
      else g.answer .okNoData

/-- Binds the scanout; another source does not inherit pixels of the one before. -/
def bind (g : Gpu) (resourceID : UInt32) (rect : Rect) : Gpu :=
  { g with
      scanout := resourceID
      scanoutRect := rect
      frame := if g.scanout ≠ resourceID ∨ g.scanoutRect ≠ rect then none else g.frame }

def cmdSetScanout (g : Gpu) (req : Bytes) : GpuAnswer :=
  if req.length < gpuCtrlHdrLen + gpuRectLen + 8 then g.answer .errUnspec
  else
    let scanoutID := uint32At req (gpuCtrlHdrLen + gpuRectLen)
    let resourceID := uint32At req (gpuCtrlHdrLen + gpuRectLen + 4)
    if scanoutID ≥ gpuNumScanouts then g.answer .errInvalidScanoutID
    else if resourceID = 0 then (g.bind 0 .zero).answer .okNoData
    else match g.resources.lookup resourceID with
      | none => g.answer .errInvalidResourceID
      | some res =>
        let r := rectOf req
        if r.w = 0 ∨ r.h = 0 ∨ ¬ r.fits res then g.answer .errInvalidParameter
        else (g.bind resourceID r.rect).answer .okNoData

def cmdResourceFlush (g : Gpu) (req : Bytes) : GpuAnswer :=
  if req.length < gpuCtrlHdrLen + gpuRectLen + 8 then g.answer .errUnspec
  else
    let resourceID := uint32At req (gpuCtrlHdrLen + gpuRectLen)
    match g.resources.lookup resourceID with
    | none => g.answer .errInvalidResourceID
    | some res =>
      let r := rectOf req
      if ¬ r.fits res then g.answer .errInvalidParameter
      else if g.scanout = resourceID then
        let (g, calls) := g.flushDamage res r.rect
        { gpu := g, resp := respNoData .okNoData, calls }
      else g.answer .okNoData

def cmdTransferToHost2D (g : Gpu) (mem : Store) (req : Bytes) : GpuAnswer :=
  if req.length < gpuCtrlHdrLen + gpuRectLen + 16 then g.answer .errUnspec
  else
    let r := rectOf req
    let offset := uint64At req (gpuCtrlHdrLen + gpuRectLen)
    let resourceID := uint32At req (gpuCtrlHdrLen + gpuRectLen + 8)
    match g.resources.lookup resourceID with
    | none => g.answer .errInvalidResourceID
    | some res =>
      if ¬ r.fits res ∨ offset.toNat > res.data.size then g.answer .errInvalidParameter
      else
        let data := transferToHost2D mem res r.x r.y r.w r.h offset
        { g with resources := g.resources.insert resourceID { res with data } }.answer .okNoData

/-- The entries of a request; one that is not in guest memory refuses all of them. -/
def backingEntries (mem : Store) (req : Bytes) : (nr off : Nat) → Option (List GpuMemEntry)
  | 0, _ => some []
  | nr + 1, off =>
    if off + 16 > req.length then some []
    else
      let addr := uint64At req off
      let length := uint32At req (off + 8)
      if validRange mem addr.toNat length.toNat then
        (backingEntries mem req nr (off + 16)).map ({ addr, length } :: ·)
      else none

def cmdResourceAttachBacking (g : Gpu) (mem : Store) (req : Bytes) : GpuAnswer :=
  if req.length < gpuCtrlHdrLen + 8 then g.answer .errUnspec
  else
    let resourceID := uint32At req gpuCtrlHdrLen
    let nr := uint32At req (gpuCtrlHdrLen + 4)
    match g.resources.lookup resourceID with
    | none => g.answer .errInvalidResourceID
    | some res =>
      if nr > gpuMaxBacking ∨ nr.toNat * 16 > req.length - (gpuCtrlHdrLen + 8) then
        g.answer .errInvalidParameter
      else match backingEntries mem req nr.toNat (gpuCtrlHdrLen + 8) with
        | none => g.answer .errInvalidParameter
        | some backing =>
          { g with resources := g.resources.insert resourceID { res with backing } }.answer .okNoData

def cmdResourceDetachBacking (g : Gpu) (req : Bytes) : GpuAnswer :=
  if req.length < gpuCtrlHdrLen + 8 then g.answer .errUnspec
  else
    let resourceID := uint32At req gpuCtrlHdrLen
    match g.resources.lookup resourceID with
    | none => g.answer .okNoData
    | some res =>
      { g with resources := g.resources.insert resourceID { res with backing := [] } }.answer .okNoData

/-- The response to a fenced request carries its fence. -/
def echoFence (req resp : Bytes) : Bytes :=
  if req.length < gpuCtrlHdrLen ∨ resp.length < gpuCtrlHdrLen then resp
  else if uint32At req 4 &&& 1 = 0 then resp
  else put (put resp 4 (leBytes 4 1)) 8 (part req 8 16)

def command (g : Gpu) (mem : Store) (req : Bytes) : GpuAnswer :=
  let kind := uint32At req 0
  if kind = 0x100 then g.cmdGetDisplayInfo
  else if kind = 0x101 then g.cmdResourceCreate2D req
  else if kind = 0x102 then g.cmdResourceUnref req
  else if kind = 0x103 then g.cmdSetScanout req
  else if kind = 0x104 then g.cmdResourceFlush req
  else if kind = 0x105 then g.cmdTransferToHost2D mem req
  else if kind = 0x106 then g.cmdResourceAttachBacking mem req
  else if kind = 0x107 then g.cmdResourceDetachBacking req
  else g.answer .errUnspec

/-- `handleControl`: one control command, with guest memory as it is then. -/
def handleControl (g : Gpu) (mem : Store) (req : Bytes) : GpuAnswer :=
  if req.length < gpuCtrlHdrLen then g.answer .errUnspec
  else
    let reply := g.command mem req
    { reply with resp := echoFence req reply.resp }

/-! ## Cursor commands, resets and the host -/

def signed (v : UInt32) : Int := v.toInt32.toInt

/-- `handleCursor`: whether the cursor has to be drawn again. -/
def handleCursor (g : Gpu) (req : Bytes) : Gpu × Bool :=
  let moved (cursor : GpuCursor) : Gpu × Bool :=
    let x := signed (uint32At req (gpuCtrlHdrLen + 4))
    let y := signed (uint32At req (gpuCtrlHdrLen + 8))
    ({ g with cursor := { cursor with x, y } }, true)
  if req.length < gpuCtrlHdrLen + 32 then (g, false)
  else if uint32At req gpuCtrlHdrLen ≥ gpuNumScanouts then (g, false)
  else if uint32At req 0 = 0x300 then
    let resourceID := uint32At req (gpuCtrlHdrLen + 16)
    let hotX := uint32At req (gpuCtrlHdrLen + 20)
    let hotY := uint32At req (gpuCtrlHdrLen + 24)
    if resourceID = 0 then moved { g.cursor with image := none }
    else match g.resources.lookup resourceID with
      | none => (g, false)
      | some res =>
        if res.width ≠ gpuCursorSize ∨ res.height ≠ gpuCursorSize ∨ hotX ≥ gpuCursorSize ∨
            hotY ≥ gpuCursorSize then (g, false)
        else
          moved
            { g.cursor with
                image := some (resourceImage res true), hotX := hotX.toNat, hotY := hotY.toNat }
  else if uint32At req 0 = 0x301 then moved g.cursor
  else (g, false)

/-- A batch of cursor commands; the cursor is drawn once after it. -/
def handleCursors (g : Gpu) (reqs : List Bytes) : Gpu × List DisplayCall :=
  let step (s : Gpu × Bool) (req : Bytes) :=
    let (g, changed) := s.1.handleCursor req
    (g, changed || s.2)
  let (g, changed) := reqs.foldl step (g, false)
  (g, if changed then g.present else [])

def resetLocked (g : Gpu) : Gpu :=
  { g with
      resources := ∅, resourceBytes := 0, scanout := 0, scanoutRect := .zero, frame := none
      cursor := {}, events := 0 }

/-- `Reset`: a display that shows the cursor is told that there is none any more. -/
def reset (g : Gpu) : Gpu × List DisplayCall :=
  let fresh := g.resetLocked
  if fresh.closed then (fresh, [])
  else
    let hide := if g.cursor.image.isSome then fresh.present else []
    let released := match fresh.display with
      | some display => if display.graphicsResetDisplay then [.graphicsReset] else []
      | none => []
    (fresh, hide ++ released)

/-- `SetDisplaySize`: the mode the guest is offered; invalid sizes change nothing. -/
def setDisplaySize (g : Gpu) (width height : Int) : Gpu :=
  if width < 200 ∨ height < 200 ∨ width > gpuMaxDimension.toNat ∨ height > gpuMaxDimension.toNat ∨
      width % 2 ≠ 0 ∨ height % 2 ≠ 0 ∨ width * height > gpuMaxPixels.toNat then g
  else if g.closed then g
  else
    let w := UInt32.ofNat width.toNat
    let h := UInt32.ofNat height.toNat
    if g.width = w ∧ g.height = h then g else { g with width := w, height := h, events := g.events ||| 1 }

def close (g : Gpu) : Gpu := if g.closed then g else { g with closed := true }.resetLocked

inductive Action where
  | control (mem : Store) (req : Bytes)
  | cursor (reqs : List Bytes)
  | reset
  | setDisplaySize (width height : Int)
  | close

/-- A closed device takes no commands. -/
def act (g : Gpu) : Action → Gpu × List DisplayCall
  | .control mem req =>
    if g.closed then (g, [])
    else
      let reply := g.handleControl mem req
      (reply.gpu, reply.calls)
  | .cursor reqs => if g.closed then (g, []) else g.handleCursors reqs
  | .reset => g.reset
  | .setDisplaySize width height => (g.setDisplaySize width height, [])
  | .close => (g.close, [])

def run (g : Gpu) (actions : List Action) : Gpu := actions.foldl (fun g action => (g.act action).1) g

end Gpu

end Gokvm.Virtio
