import Gokvm.Rdp.Region

/-! # The picture given to the H.264 codec

The encoder keeps one I420 picture: a luma byte for each pixel, then a plane of each chroma byte
for two by two blocks. A frame converts its damage in place and asks the codec only if a byte
changed. The colour conversion is the scalar one; clock, thread count and the reason of a fallback
do not influence it and are left out.
-/

namespace Gokvm.Rdp

open Lib

inductive AvcError
  | geometry
  | codec
  | closed
  | threads
  | backend
  | frameRate
deriving DecidableEq, Repr

inductive Backend
  | software
  | nvenc
deriving DecidableEq, Repr

/-- What the options ask for; `default` is the empty string. -/
inductive BackendOption
  | default
  | software
  | nvenc
  | auto
  | other
deriving DecidableEq, Repr

structure AvcOptions where
  threads : Int
  backend : BackendOption
  frameRate : Int

/-- A desktop size that the encoder takes. -/
structure AvcFormat where
  width : Nat
  height : Nat
  wide : 16 ≤ width
  widest : width ≤ 4096
  high : 16 ≤ height
  highest : height ≤ 4096
  evenWidth : width % 2 = 0
  evenHeight : height % 2 = 0

/-! ## Colours -/

def toByte (v : Int) : UInt8 := UInt8.ofNat (v % 256).toNat

def lumaByte (r g b : Int) : UInt8 := toByte ((54 * r + 183 * g + 18 * b) >>> (8 : Nat))

def uByte (red green blue : Int) : UInt8 := toByte (((-29 * red - 99 * green + 128 * blue) >>> (8 : Nat)) + 128)

def vByte (red green blue : Int) : UInt8 := toByte (((128 * red - 116 * green - 12 * blue) >>> (8 : Nat)) + 128)

namespace AvcFormat

variable (f : AvcFormat)

def output : Rect := .whole f.width f.height

def size : Nat := f.width * f.height * 3 / 2

def luma : Nat := f.width * f.height

def chroma : Nat := f.luma / 4

def nearest (img : RGBA) (x y c : Nat) : Int :=
  (img.sample (near img.rect.dx.toNat f.width x) (near img.rect.dy.toNat f.height y) c).toNat

def lumaAt (img : RGBA) (x y : Nat) : UInt8 :=
  lumaByte (f.nearest img x y 0) (f.nearest img x y 1) (f.nearest img x y 2)

/-- The average of a colour over the two by two block at a pixel. -/
def average (img : RGBA) (x y c : Nat) : Int :=
  (f.nearest img x y c + f.nearest img (x + 1) y c + f.nearest img x (y + 1) c +
    f.nearest img (x + 1) (y + 1) c) / 4

def uAt (img : RGBA) (x y : Nat) : UInt8 :=
  uByte (f.average img x y 0) (f.average img x y 1) (f.average img x y 2)

def vAt (img : RGBA) (x y : Nat) : UInt8 :=
  vByte (f.average img x y 0) (f.average img x y 1) (f.average img x y 2)

/-! ## Conversion -/

/-- The six bytes that one round of the inner loop writes. -/
def blockWrites (img : RGBA) (x y pos : Nat) : List (Nat × UInt8) :=
  [(y * f.width + x, f.lumaAt img x y), (y * f.width + (x + 1), f.lumaAt img (x + 1) y),
    ((y + 1) * f.width + x, f.lumaAt img x (y + 1)),
    ((y + 1) * f.width + (x + 1), f.lumaAt img (x + 1) (y + 1)),
    (f.luma + pos, f.uAt img x y), (f.luma + f.chroma + pos, f.vAt img x y)]

def convertBlock (img : RGBA) (state : Store × Bool) (block : Nat × Nat × Nat) : Store × Bool :=
  let writes := f.blockWrites img block.1 block.2.1 block.2.2
  (writes.foldl (fun dst write => dst.write write.1 [write.2]) state.1,
    state.2 || writes.any fun write => state.1.byte write.1 != write.2)

/-- The rounds of the two loops over a region: column, row and place in the chroma planes. -/
def blocks (region : Rect) : List (Nat × Nat × Nat) :=
  (List.range ((region.dy.toNat + 1) / 2)).flatMap fun j =>
    let y := region.minY.toNat + 2 * j
    (List.range ((region.dx.toNat + 1) / 2)).map fun i =>
      (region.minX.toNat + 2 * i, y, y / 2 * (f.width / 2) + region.minX.toNat / 2 + i)

/-- Converts a region in place and tells whether a byte changed. -/
def scaleI420Region (dst : Store) (img : RGBA) (region : Rect) : Store × Bool :=
  if region.Empty then (dst, false) else (f.blocks region).foldl (f.convertBlock img) (dst, false)

def scaleRegions (img : RGBA) (state : Store × Bool) (regions : List Rect) : Store × Bool :=
  regions.foldl
    (fun state region =>
      let scaled := f.scaleI420Region state.1 img region
      (scaled.1, scaled.2 || state.2))
    state

end AvcFormat

/-! ## The encoder -/

/-- A byte string that a codec may return: both refuse to return an empty one. -/
structure AccessUnit where
  data : Bytes
  some : data ≠ []

structure AvcEncoder extends AvcFormat where
  codec : Option Backend
  auto : Bool
  i420 : Store
  source : Rect
  initialized : Bool
  retry : Bool
  frame : Nat
  frameRate : Nat

def AvcFormat.fresh (f : AvcFormat) (codec : Backend) (auto : Bool) (frameRate : Nat) : AvcEncoder :=
  { toAvcFormat := f, codec := some codec, auto := auto, i420 := .blank f.size, source := .zero
    initialized := false, retry := false, frame := 0, frameRate := frameRate }

/-- The codec of a new encoder; `nvenc` and `software` tell which can be made. -/
def chooseBackend (option : BackendOption) (nvenc software : Bool) : Except AvcError Backend :=
  match option with
  | .other => .error .backend
  | .default | .software => if software then .ok .software else .error .codec
  | .nvenc => if nvenc then .ok .nvenc else .error .codec
  | .auto => if nvenc then .ok .nvenc else if software then .ok .software else .error .codec

def newEncoder (width height : Int) (options : AvcOptions) (nvenc software : Bool) :
    Except AvcError AvcEncoder :=
  if accepted : ¬ (width < 16 ∨ height < 16 ∨ width > 4096 ∨ height > 4096 ∨ width % 2 ≠ 0 ∨ height % 2 ≠ 0) then
    let frameRate := if options.frameRate = 0 then 60 else options.frameRate
    if options.threads < 1 ∨ options.threads > 16 then .error .threads
    else if frameRate < 1 ∨ frameRate > 60 then .error .frameRate
    else
      match chooseBackend options.backend nvenc software with
      | .error error => .error error
      | .ok codec =>
        .ok (AvcFormat.fresh
          { width := width.toNat, height := height.toNat
            wide := by omega, widest := by omega, high := by omega, highest := by omega
            evenWidth := by omega, evenHeight := by omega }
          codec (decide (options.backend = .auto)) frameRate.toNat)
  else .error .geometry

/-- A picture handed to a codec, and whether the codec encoded it. -/
structure Request where
  picture : Store
  key : Bool
  timestamp : Nat
  ok : Bool

/-- What the codecs do during a call: the reply of the one in use, whether there is a software one,
    and its reply. -/
structure Replies where
  first : Option AccessUnit
  software : Bool
  second : Option AccessUnit

structure AvcOutcome where
  result : Except AvcError (Option AccessUnit)
  requests : List Request
  encoder : AvcEncoder

namespace AvcEncoder

variable (e : AvcEncoder)

def mapped (img : RGBA) (regions : Option (List Rect)) (force : Bool) : List Rect :=
  match regions with
  | none => [e.output]
  | some regions =>
    if force || !e.initialized || decide (e.source ≠ img.rect) then [e.output]
    else regions.map fun region => align (map region img.rect e.output) 2 e.output

/-- The conversion of a frame, and whether the codec has something to do. -/
def convert (img : RGBA) (regions : Option (List Rect)) (force : Bool) : AvcEncoder × Bool :=
  let scaled := e.scaleRegions img (e.i420, !e.initialized || e.retry) (e.mapped img regions force)
  ({ e with i420 := scaled.1, source := img.rect, initialized := true }, scaled.2)

def request (key ok : Bool) : Request :=
  { picture := e.i420, key := key, timestamp := e.frame * 1000 / e.frameRate, ok := ok }

def finish (requests : List Request) (codec : Backend) (data : Option AccessUnit) : AvcOutcome where
  result := match data with
    | some unit => .ok (some unit)
    | none => .error .codec
  requests := requests
  encoder := { e with codec := some codec, frame := e.frame + 1, retry := data.isNone }

/-- Asks the codec, and after a failure of NVENC the software one if the options allow it. -/
def ask (backend : Backend) (force : Bool) (replies : Replies) : AvcOutcome :=
  let key := force || e.retry
  match replies.first with
  | some unit => e.finish [e.request key true] backend (some unit)
  | none =>
    if e.auto && decide (backend = .nvenc) then
      if replies.software then
        e.finish [e.request key false, e.request true replies.second.isSome] .software replies.second
      else e.finish [e.request key false] backend none
    else e.finish [e.request key false] backend none

def encodeDamage (img : Option RGBA) (regions : Option (List Rect)) (force : Bool) (replies : Replies) :
    AvcOutcome :=
  match e.codec with
  | none => { result := .error .closed, requests := [], encoder := e }
  | some backend =>
    match img.filter fun img => validRGBA img with
    | none => { result := .error .geometry, requests := [], encoder := e }
    | some img =>
      let (e, changed) := e.convert img regions force
      if !force && !changed then { result := .ok none, requests := [], encoder := e }
      else e.ask backend force replies

def close : AvcEncoder :=
  if e.codec.isSome then { e with codec := none, i420 := .blank 0 } else e

end AvcEncoder

end Gokvm.Rdp
