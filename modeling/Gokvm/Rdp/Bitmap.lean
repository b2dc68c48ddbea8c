import Gokvm.Rdp.Region

/-! # Bitmap updates

The encoder keeps the packed picture of the whole desktop, the packed picture that it last
sent completely, and a flag for each 64 by 64 tile that may differ between the two. A
frame converts its damage, marks the tiles, sends those that really changed and commits
only when every tile was sent.
-/

namespace Gokvm.Rdp

open Lib

inductive BitmapError
  | bitmapFormat
  | send
deriving DecidableEq, Repr

def bitmapTileSize : Nat := 64

/-- A desktop size and colour depth that the encoder takes. -/
structure Format where
  width : Nat
  height : Nat
  bytesPerPixel : Nat
  wide : 0 < width
  widest : width ≤ 4096
  high : 0 < height
  highest : height ≤ 4096
  depth : bytesPerPixel = 2 ∨ bytesPerPixel = 3 ∨ bytesPerPixel = 4

namespace Format

variable (f : Format)

def output : Rect := .whole f.width f.height

def size : Nat := f.width * f.height * f.bytesPerPixel

def columns : Nat := (f.width + bitmapTileSize - 1) / bitmapTileSize

def tiles : Nat := f.columns * ((f.height + bitmapTileSize - 1) / bitmapTileSize)

def offset (x y k : Nat) : Nat := spot f.bytesPerPixel f.width x y k

/-- Column, row, width and height of a tile. -/
def tileBounds (index : Nat) : Nat × Nat × Nat × Nat :=
  let left := index % f.columns * bitmapTileSize
  let top := index / f.columns * bitmapTileSize
  (left, top, min bitmapTileSize (f.width - left), min bitmapTileSize (f.height - top))

/-- The bytes that `scaleRegion` writes for a pixel; of four the last one is never written. -/
def pack (r g b : UInt8) : Bytes :=
  if f.bytesPerPixel = 2 then
    leBytes 2 (((r >>> 3).toUInt16 <<< 11) ||| ((g >>> 2).toUInt16 <<< 5) ||| (b >>> 3).toUInt16).toNat
  else [b, g, r]

/-- The packed nearest pixel of the picture. -/
def colour (img : RGBA) (x y : Nat) : Bytes :=
  let srcX := near img.rect.dx.toNat f.width x
  let srcY := near img.rect.dy.toNat f.height y
  f.pack (img.sample srcX srcY 0) (img.sample srcX srcY 1) (img.sample srcX srcY 2)

def scaleRegion (img : RGBA) (pixels : Store) (region : Rect) : Store :=
  plot f.bytesPerPixel pixels f.width (f.colour img) region.minX.toNat region.dx.toNat
    region.minY.toNat region.dy.toNat

def markPending (pending : List Bool) (region : Rect) : List Bool :=
  if region.Empty then pending
  else (touched bitmapTileSize f.columns region).foldl (fun pending i => pending.set i true) pending

/-- The parts of the desktop that a frame converts. -/
def mapped (img : RGBA) (regions : Option (List Rect)) (refresh : Bool) : List Rect :=
  match regions with
  | none => [f.output]
  | some regions =>
    if refresh then [f.output] else regions.map fun region => map region img.rect f.output

/-- The bytes of a tile in a row of a packed picture. -/
def tileRow (pixels : Store) (index y : Nat) : Bytes :=
  let (left, _, width, _) := f.tileBounds index
  pixels.read (f.offset left y 0) (width * f.bytesPerPixel)

def unchanged (pixels previous : Store) (index : Nat) : Bool :=
  let (_, top, _, height) := f.tileBounds index
  decide (previous.size = pixels.size) &&
    (List.range' top height).all fun y => f.tileRow pixels index y == f.tileRow previous index y

def stride (width : Nat) : Nat := (width * f.bytesPerPixel + 3) / 4 * 4

/-- One uncompressed bitmap, its rows bottom-up and padded to a multiple of four bytes. -/
def tile (pixels : Store) (index : Nat) : Bytes :=
  let (left, top, width, height) := f.tileBounds index
  let fields :=
    [1, 1, left, top, left + width - 1, top + height - 1, width, height, f.bytesPerPixel * 8, 0,
      f.stride width * height]
  fields.flatMap (leBytes 2) ++
    (List.range height).flatMap fun row =>
      f.tileRow pixels index (top + height - 1 - row) ++
        List.replicate (f.stride width - width * f.bytesPerPixel) 0

/-- A sent tile becomes what the client is taken to show. -/
def commitTile (pixels previous : Store) (index : Nat) : Store :=
  let (left, top, _, height) := f.tileBounds index
  patch f.bytesPerPixel previous f.width left (f.tileRow pixels index) top height

end Format

/-- The encoder; no buffer at all is one of size zero. -/
structure BitmapEncoder extends Format where
  pixels : Store
  previous : Store
  source : Rect
  pending : List Bool
  refresh : Bool

def Format.fresh (f : Format) : BitmapEncoder :=
  { toFormat := f, pixels := .blank 0, previous := .blank 0, source := .zero, pending := [], refresh := false }

def newBitmapEncoder (width height bitsPerPixel : Int) : Except BitmapError BitmapEncoder :=
  if accepted : ¬ (width ≤ 0 ∨ height ≤ 0 ∨ width > 4096 ∨ height > 4096 ∨
      (bitsPerPixel ≠ 16 ∧ bitsPerPixel ≠ 24 ∧ bitsPerPixel ≠ 32)) then
    .ok (Format.fresh
      { width := width.toNat, height := height.toNat, bytesPerPixel := bitsPerPixel.toNat / 8
        wide := by omega, widest := by omega, high := by omega, highest := by omega
        depth := by omega })
  else .error .bitmapFormat

/-- What a call reports, what it handed to the transport and what it leaves. -/
structure BitmapOutcome where
  error : Option BitmapError
  sent : List Bytes
  encoder : BitmapEncoder

namespace BitmapEncoder

variable (e : BitmapEncoder)

/-- The buffers are made at the first frame. -/
def allocate : BitmapEncoder :=
  if e.pixels.size = 0 then
    { e with
      pixels := .blank e.size, previous := .blank e.size
      pending := List.replicate e.tiles false, refresh := true }
  else e

/-- Converts some parts of the desktop and marks their tiles. -/
def redraw (img : RGBA) (mapped : List Rect) (refresh : Bool) : BitmapEncoder :=
  { e with
    pixels := mapped.foldl (e.scaleRegion img) e.pixels
    pending := mapped.foldl e.markPending e.pending
    source := img.rect
    refresh := refresh }

/-- Everything a frame does before the first tile is sent. -/
def convert (img : RGBA) (regions : Option (List Rect)) (force : Bool) : BitmapEncoder :=
  let e := e.allocate
  let refresh := e.refresh || force || decide (e.source ≠ img.rect)
  e.redraw img (e.mapped img regions refresh) refresh

def outgoing : List Nat :=
  (List.range e.pending.length).filter fun index =>
    e.pending.getD index false && (e.refresh || !e.unchanged e.pixels e.previous index)

def commit : BitmapEncoder :=
  let committed := (List.range e.pending.length).filter fun index => e.pending.getD index false
  { e with
    previous := committed.foldl (e.commitTile e.pixels) e.previous
    pending := e.pending.map fun _ => false
    refresh := false }

/-- `failure` is the number of the send that fails, if one does. -/
def writeFrameDamage (img : Option RGBA) (regions : Option (List Rect)) (force : Bool)
    (failure : Option Nat) : BitmapOutcome :=
  match img with
  | none => { error := none, sent := [], encoder := e }
  | some img =>
    if img.rect.Empty then { error := none, sent := [], encoder := e }
    else if !validRGBA img then { error := some .bitmapFormat, sent := [], encoder := e }
    else
      let e := e.convert img regions force
      let payloads := e.outgoing.map (e.tile e.pixels)
      match failure with
      | none => { error := none, sent := payloads, encoder := e.commit }
      | some n =>
        if n < payloads.length then { error := some .send, sent := payloads.take n, encoder := e }
        else { error := none, sent := payloads, encoder := e.commit }

end BitmapEncoder

/-! ## The client -/

def updateField (data : Bytes) (i : Nat) : Nat := leNat (part data (i * 2) 2)

/-- A client paints the rectangle of an update into its desktop. -/
def paint (width : Nat) (desktop : Store) (data : Bytes) : Store :=
  let left := updateField data 2
  let top := updateField data 3
  let bottom := updateField data 5
  let columns := updateField data 6
  let rows := updateField data 7
  let depth := updateField data 8 / 8
  let stride := (columns * depth + 3) / 4 * 4
  patch depth desktop width left
    (fun y => part data (22 + (bottom - y) * stride) (columns * depth)) top rows

/-- Byte `k` of a pixel of the scaled and packed picture. -/
def Format.shade (f : Format) (img : RGBA) (x y k : Nat) : UInt8 := (f.colour img x y).getD k 0

/-- The desktop is the conversion of the whole picture. -/
def Format.Shows (f : Format) (desktop : Store) (img : RGBA) : Prop :=
  ∀ x y k, x < f.width → y < f.height → k < f.bytesPerPixel → desktop.byte (f.offset x y k) = f.shade img x y k

end Gokvm.Rdp
