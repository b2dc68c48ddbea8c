import Gokvm.Lib.Raster

/-! # The framebuffer

The display owns one picture. A publication copies an image or its damaged parts and stamps the
64-pixel tiles it touched with its number. Every reader has its own picture and the number it last
saw, and copies tiles with later stamps. Slices of pixels are values here, so a picture still
being read by an old client is never changed.
-/

namespace Gokvm.Virtio

open Lib

def framebufferTileSize : Nat := 64

def maxFrameDamageRects : Nat := 128

def maxInt : Int := 2 ^ 63 - 1

/-- `image.RGBA`: the size of its rectangle, the stride and the pixels. -/
structure RGBA where
  dx : Int
  dy : Int
  stride : Int
  pix : Store

structure Framebuffer where
  width : Nat
  height : Nat
  frame : Store
  tileVersions : List UInt64
  seq : UInt64

def vncDefaultWidth : Nat := 1024

def vncDefaultHeight : Nat := 768

def newFramebuffer : Framebuffer where
  width := vncDefaultWidth
  height := vncDefaultHeight
  frame := Store.blank 0
  tileVersions := []
  seq := 0

/-- A picture of its own that a reader keeps up to date. -/
structure VncFrame where
  width : Nat
  height : Nat
  pix : Store
  seq : UInt64

def VncFrame.initial : VncFrame := { width := 0, height := 0, pix := Store.blank 0, seq := 0 }

inductive DisplayError where
  | invalidFramebuffer
deriving DecidableEq

/-- The checks that both publications make on the image. -/
def invalid (width height : Int) (img : RGBA) : Bool :=
  width > maxInt / 4 || height > maxInt / (width * 4) || width > img.dx || height > img.dy ||
    img.stride < width * 4 || img.pix.size < width * 4 ||
    height - 1 > (img.pix.size - width * 4) / img.stride

/-- How both publications begin: an image to show, nothing to do, or an error. -/
def checked (width height : Int) (img : Option RGBA) : Except DisplayError (Option RGBA) :=
  if width ≤ 0 ∨ height ≤ 0 then .ok none
  else match img with
    | none => .error .invalidFramebuffer
    | some img => if invalid width height img then .error .invalidFramebuffer else .ok (some img)

def RGBA.piece (img : RGBA) (left span y : Nat) : Bytes :=
  img.pix.read (y * img.stride.toNat + left * 4) (span * 4)

/-- Copies a rectangle of an image to the same place of a picture. -/
def copyRect (img : RGBA) (width : Nat) (frame : Store) (rect : Rect) : Store :=
  blit frame width rect.minX.toNat (img.piece rect.minX.toNat rect.dx.toNat) rect.minY.toNat
    rect.dy.toNat

namespace Framebuffer

def cols (d : Framebuffer) : Nat := (d.width + framebufferTileSize - 1) / framebufferTileSize

def rows (d : Framebuffer) : Nat := (d.height + framebufferTileSize - 1) / framebufferTileSize

def bounds (d : Framebuffer) : Rect := .whole d.width d.height

def touchedTiles (cols : Nat) (rect : Rect) : List Nat :=
  let top := rect.minY.toNat / framebufferTileSize
  let bottom := (rect.maxY.toNat - 1) / framebufferTileSize
  let left := rect.minX.toNat / framebufferTileSize
  let right := (rect.maxX.toNat - 1) / framebufferTileSize
  (List.range' top (bottom + 1 - top)).flatMap fun y =>
    (List.range' left (right + 1 - left)).map fun x => y * cols + x

def stamp (seq : UInt64) (versions : List UInt64) (tiles : List Nat) : List UInt64 :=
  tiles.foldl (fun versions i => versions.set i seq) versions

/-- The tiles of one damaged rectangle get the number of the publication. -/
def markRect (d : Framebuffer) (versions : List UInt64) (rect : Rect) : List UInt64 :=
  let rect := rect.inter d.bounds
  if rect.Empty then versions else stamp d.seq versions (touchedTiles d.cols rect)

/-- `markFrameDamageLocked`; no list stands for the whole frame. -/
def markFrameDamage (d : Framebuffer) (damage : Option (List Rect)) : Framebuffer :=
  if d.tileVersions.length ≠ d.cols * d.rows then
    { d with tileVersions := List.replicate (d.cols * d.rows) d.seq }
  else match damage with
    | none => { d with tileVersions := d.tileVersions.map fun _ => d.seq }
    | some damage => { d with tileVersions := damage.foldl d.markRect d.tileVersions }

def showWhole (d : Framebuffer) (width height : Nat) (img : RGBA) : Framebuffer :=
  let frame := blit (Store.blank (width * height * 4)) width 0 (img.piece 0 width) 0 height
  { d with width, height, frame, seq := d.seq + 1 }.markFrameDamage none

/-- `flush`: a whole image. -/
def flush (d : Framebuffer) (width height : Int) (img : Option RGBA) : Except DisplayError Framebuffer :=
  (checked width height img).map fun
    | none => d
    | some img => d.showWhole width.toNat height.toNat img

/-- Without a list of damage, or in a frame of another size, the whole image is copied. -/
def showDamage (d : Framebuffer) (width height : Nat) (img : RGBA) (damage : Option (List Rect)) :
    Framebuffer :=
  let bounds := Rect.whole width height
  let fresh := d.frame.size ≠ width * height * 4
  let damage := if d.width ≠ width ∨ d.height ≠ height ∨ fresh then none else damage
  let rects := damage.getD [bounds]
  if rects.all fun rect => decide (rect.inter bounds).Empty then d
  else
    let frame := if fresh then Store.blank (width * height * 4) else d.frame
    let frame := rects.foldl (fun frame rect => copyRect img width frame (rect.inter bounds)) frame
    { d with width, height, frame, seq := d.seq + 1 }.markFrameDamage damage

/-- `flushDamage`: the damaged parts of an image. -/
def flushDamage (d : Framebuffer) (width height : Int) (img : Option RGBA)
    (damage : Option (List Rect)) : Except DisplayError Framebuffer :=
  (checked width height img).map fun
    | none => d
    | some img => d.showDamage width.toNat height.toNat img damage

/-! ## Readers -/

/-- The runs of consecutive changed tiles in a row of tiles, scanned from tile `x` on. -/
def scan : (x : Nat) → (start : Option Nat) → List Bool → List (Nat × Nat)
  | _, none, [] => []
  | x, some start, [] => [(start, x)]
  | x, none, changed :: rest => scan (x + 1) (if changed then some x else none) rest
  | x, some start, true :: rest => scan (x + 1) (some start) rest
  | x, some start, false :: rest => (start, x) :: scan (x + 1) none rest

def runRect (d : Framebuffer) (y : Nat) (run : Nat × Nat) : Rect where
  minX := (run.1 * framebufferTileSize : Nat)
  minY := (y * framebufferTileSize : Nat)
  maxX := (min (run.2 * framebufferTileSize) d.width : Nat)
  maxY := (min ((y + 1) * framebufferTileSize) d.height : Nat)

def changedRow (d : Framebuffer) (sequence : UInt64) (y : Nat) : List Bool :=
  (List.range d.cols).map fun x => decide (d.tileVersions.getD (y * d.cols + x) 0 > sequence)

def runRects (d : Framebuffer) (sequence : UInt64) : List Rect :=
  (List.range d.rows).flatMap fun y => (scan 0 none (d.changedRow sequence y)).map (d.runRect y)

/-- Joins a rectangle to the newest one that it continues downwards. -/
def joinBelow (rect : Rect) : List Rect → Option (List Rect)
  | [] => none
  | r :: rest =>
    if r.maxY = rect.minY ∧ r.minX = rect.minX ∧ r.maxX = rect.maxX then
      some ({ r with maxY := rect.maxY } :: rest)
    else (joinBelow rect rest).map (r :: ·)

/-- Collects rectangles, newest first; too many are given up. -/
def collect : List Rect → List Rect → Option (List Rect)
  | rects, [] => some rects
  | rects, rect :: rest => match joinBelow rect rects with
    | some joined => collect joined rest
    | none =>
      if maxFrameDamageRects < rects.length + 1 then none else collect (rect :: rects) rest

def changedTileRects (d : Framebuffer) (sequence : UInt64) : List Rect :=
  match collect [] (d.runRects sequence) with
  | some rects => rects.reverse
  | none => [d.bounds]

/-- A row piece of the picture; zeros while nothing was published. -/
def piece (d : Framebuffer) (left span y : Nat) : Bytes :=
  if place d.width left y 0 + span * 4 ≤ d.frame.size then
    d.frame.read (place d.width left y 0) (span * 4)
  else List.replicate (span * 4) 0

def copyChange (d : Framebuffer) (pix : Store) (rect : Rect) : Store :=
  blit pix d.width rect.minX.toNat (d.piece rect.minX.toNat rect.dx.toNat) rect.minY.toNat rect.dy.toNat

/-- `copyFrameChanges`: the rectangles that were copied and the picture of the reader. -/
def copyFrameChanges (d : Framebuffer) (frame : VncFrame) (force : Bool) : List Rect × VncFrame :=
  let size := d.width * d.height * 4
  let full := force || frame.width != d.width || frame.height != d.height || frame.pix.size != size
  let pix := if frame.pix.size ≠ size then Store.blank size else frame.pix
  let damage := if full || d.tileVersions.isEmpty then [d.bounds] else d.changedTileRects frame.seq
  (damage, { width := d.width, height := d.height, pix := damage.foldl d.copyChange pix, seq := d.seq })

end Framebuffer

end Gokvm.Virtio
