import Gokvm.Lib.Checked

/-! # Parsers of client data

The parsers that walk blocks whose lengths the client chose: Connect Initial with its GCC blocks,
Client Info, Confirm Active and the graphics channel with their capability sets. Every index and
slice of the source is a checked access, so a parser that reads outside its input, or does not get
ahead, would show it.
-/

namespace Gokvm.Rdp.Parser

open Lib Checked

/-- A parser of client data; its refusals are the texts of the source. -/
abbrev Parsed (α : Type) := Checked String α

/-! ## Lengths -/

/-- The value of `n` bytes at `off` and what follows it. -/
def takeBytes (p : Bytes) (n off : Nat) : Parsed (Bytes × Bytes) :=
  if (n : Int) > p.length - off then refuse "unexpected EOF"
  else do
    let value ← slice p off (off + n)
    let rest ← sliceFrom p (off + n)
    pure (value, rest)

def takeBER (p : Bytes) (tag : UInt8) : Parsed (Bytes × Bytes) :=
  if p.length < 2 then refuse "rdp: unexpected BER tag"
  else do
    let first ← index p 0
    if first ≠ tag then refuse "rdp: unexpected BER tag"
    else do
      let second ← index p 1
      let n := second.toNat
      if n &&& 0x80 ≠ 0 then
        let count := n &&& 0x7f
        if count = 0 ∨ count > 2 ∨ p.length < 2 + count then refuse "rdp: invalid BER length"
        else do
          let digits ← slice p 2 (2 + count)
          takeBytes p (digits.foldl (fun n b => n <<< 8 ||| b.toNat) 0) (2 + count)
      else takeBytes p n 2

def takePER (p : Bytes) : Parsed Bytes :=
  if p.length = 0 then refuse "unexpected EOF"
  else do
    let first ← index p 0
    let n := first.toNat
    if n &&& 0x80 ≠ 0 then
      if p.length < 2 then refuse "unexpected EOF"
      else do
        let second ← index p 1
        let n := (n &&& 0x7f) <<< 8 ||| second.toNat
        if (n : Int) ≠ p.length - 2 then refuse "rdp: invalid PER payload length" else sliceFrom p 2
    else if (n : Int) ≠ p.length - 1 then refuse "rdp: invalid PER payload length"
    else sliceFrom p 1

/-- `bytes.Index`: where the needle first occurs, or -1. -/
def indexOf (hay needle : Bytes) : Int :=
  match (List.range (hay.length + 1)).find? fun i => needle.isPrefixOf (hay.drop i) with
  | some i => i
  | none => -1

/-! ## Connect Initial -/

structure ClientSettings where
  width : Nat
  height : Nat
  channels : Nat
  dynamicChannel : Nat
  audioChannel : Nat
  graphics : Bool
deriving DecidableEq

def ClientSettings.zero : ClientSettings :=
  { width := 0, height := 0, channels := 0, dynamicChannel := 0, audioChannel := 0, graphics := false }

/-- "rdpsnd" -/
def audioName : Bytes := [0x72, 0x64, 0x70, 0x73, 0x6e, 0x64]

/-- "drdynvc" -/
def dynamicName : Bytes := [0x64, 0x72, 0x64, 0x79, 0x6e, 0x76, 0x63]

def ClientSettings.staticChannel (c : ClientSettings) (name : Bytes) (channel : Nat) : Parsed ClientSettings :=
  if name = audioName then
    if c.audioChannel ≠ 0 then refuse "rdp: duplicate rdpsnd channel"
    else pure { c with audioChannel := channel }
  else if name = dynamicName then
    if c.dynamicChannel ≠ 0 then refuse "rdp: duplicate drdynvc channel"
    else pure { c with dynamicChannel := channel }
  else pure c

/-- `bytes.TrimRight(name, "\x00")` -/
def trimRight (name : Bytes) : Bytes := (name.reverse.dropWhile (· == 0)).reverse

/-- What the loop over the GCC blocks carries. -/
structure Blocks where
  rest : Bytes
  settings : ClientSettings
  core : Bool
  network : Bool

/-- Whether the core data asks for TLS, where it says so. -/
def coreSecured (payload : Bytes) : Parsed Bool :=
  if payload.length < 212 then pure true
  else do
    let field ← slice payload 208 212
    let requested ← little 4 field
    pure (requested == 1)

/-- Whether the core data offers the graphics channel, where it says so. -/
def coreGraphics (payload : Bytes) (graphics : Bool) : Parsed Bool :=
  if payload.length < 142 then pure graphics
  else do
    let field ← slice payload 140 142
    let flags ← little 2 field
    pure (flags &&& 0x100 != 0)

def coreBlock (b : Blocks) (payload : Bytes) : Parsed Blocks :=
  if b.core ∨ payload.length < 128 then refuse "rdp: invalid GCC core data"
  else do
    let secured ← coreSecured payload
    if !secured then refuse "rdp: client core TLS negotiation mismatch"
    else do
      let graphics ← coreGraphics payload b.settings.graphics
      let across ← slice payload 4 6
      let width ← little 2 across
      let down ← slice payload 6 8
      let height ← little 2 down
      pure
        { b with
          settings := { b.settings with graphics := graphics, width := width, height := height }
          core := true }

def networkBlock (b : Blocks) (payload : Bytes) : Parsed Blocks :=
  if b.network ∨ payload.length < 4 then refuse "rdp: invalid GCC network data"
  else do
    let count ← little 4 payload
    if count > 31 ∨ payload.length ≠ 4 + 12 * count then refuse "rdp: invalid static channel count"
    else do
      let settings ← times (fun i settings => do
        let name ← slice payload (4 + 12 * i) (12 + 12 * i)
        settings.staticChannel (trimRight name) (1004 + i)) count b.settings
      pure { b with settings := { settings with channels := count }, network := true }

/-- Blocks of other kinds are skipped. -/
def gccPayload (b : Blocks) (kind : Nat) (payload : Bytes) : Parsed Blocks :=
  if kind = 0xc001 then coreBlock b payload
  else if kind = 0xc003 then networkBlock b payload
  else pure b

/-- One round of the loop over the GCC blocks. -/
def gccBlock (b : Blocks) : Parsed Blocks :=
  if b.rest.length < 4 then refuse "rdp: truncated GCC block"
  else do
    let kind ← little 2 b.rest
    let field ← slice b.rest 2 4
    let size ← little 2 field
    if size < 4 ∨ size > b.rest.length then refuse "rdp: invalid GCC block size"
    else do
      let payload ← slice b.rest 4 size
      let b ← gccPayload b kind payload
      let rest ← sliceFrom b.rest size
      pure { b with rest := rest }

def gccBlocks (blocks : Bytes) : Parsed Blocks :=
  loopWhile (fun b => decide (0 < b.rest.length)) gccBlock blocks.length
    { rest := blocks, settings := .zero, core := false, network := false }

/-- The fields of the Connect Initial body before the user data. -/
def skipFields : List UInt8 → Bytes → Parsed Bytes
  | [], body => pure body
  | tag :: tags, body => do
    let field ← takeBER body tag
    skipFields tags field.2

def parseConnectInitialDetails (p : Bytes) : Parsed ClientSettings :=
  if p.length < 3 then refuse "rdp: missing MCS Connect Initial"
  else do
    let first ← index p 0
    if first ≠ 0x7f then refuse "rdp: missing MCS Connect Initial"
    else do
      let after ← sliceFrom p 1
      let outer ← attempt (takeBER after 0x65)
      match outer with
      | some (body, []) => do
        let body ← skipFields [4, 4, 1, 0x30, 0x30, 0x30] body
        let envelope ← attempt (takeBER body 4)
        match envelope with
        | some (gcc, []) =>
          let key := indexOf gcc [0xc0, 0, 0x44, 0x75, 0x63, 0x61]
          if key < 0 then refuse "rdp: missing GCC client key"
          else do
            let user ← sliceFrom gcc (key + 6)
            let blocks ← takePER user
            let done ← gccBlocks blocks
            if done.core then pure done.settings else refuse "rdp: missing client core data"
        | _ => refuse "rdp: invalid GCC envelope"
      | _ => refuse "rdp: invalid MCS Connect Initial"

/-! ## Client Info -/

/-- One string of Client Info; returns where it ends. -/
def infoString (p : Bytes) (terminator : Nat) (i off : Nat) : Parsed Nat := do
  let field ← slice p (12 + 2 * i) (14 + 2 * i)
  let n ← little 2 field
  if n % terminator ≠ 0 ∨ (n + terminator : Int) > p.length - off then
    refuse "rdp: truncated Client Info string"
  else do
    let tail ← slice p (off + n) (off + n + terminator)
    if tail.any (· ≠ 0) then refuse "rdp: unterminated Client Info string"
    else pure (off + n + terminator)

def validateClientInfo (p : Bytes) : Parsed Unit :=
  if p.length < 22 then refuse "rdp: expected TLS Client Info"
  else do
    let head ← slice p 0 4
    let security ← little 4 head
    if security ≠ 0x40 then refuse "rdp: expected TLS Client Info"
    else do
      let field ← slice p 8 12
      let flags ← little 4 field
      let terminator := if flags &&& 0x10 ≠ 0 then 2 else 1
      let _ ← times (infoString p terminator) 5 22
      pure ()

/-! ## Confirm Active -/

structure PointerCapabilities where
  colors : Nat
  alpha : Nat
deriving DecidableEq

def shareID : Nat := 0x103ea

/-- What the loop over the capability sets carries. -/
structure Capabilities where
  off : Nat
  bitmap : Bool
  pointerSeen : Bool
  pointer : PointerCapabilities
  bitsPerPixel : Nat

def bitmapCapability (p : Bytes) (update : Bool) (kind n : Nat) (c : Capabilities) : Parsed Capabilities :=
  if kind ≠ 2 then pure c
  else if c.bitmap ∨ n < 28 then refuse "rdp: invalid bitmap capability"
  else do
    let field ← slice p (c.off + 4) (c.off + 6)
    let bpp ← little 2 field
    if bpp ≠ 16 ∧ bpp ≠ 24 ∧ bpp ≠ 32 then
      refuse ("rdp: unsupported client color depth " ++ toString bpp)
    else if update then pure { c with bitmap := true, bitsPerPixel := bpp }
    else if c.bitsPerPixel ≠ bpp then refuse "rdp: color depth changed during reactivation"
    else pure { c with bitmap := true }

/-- The size of the cache for pointers with an alpha channel, where the set is long enough. -/
def pointerAlpha (p : Bytes) (n off alpha : Nat) : Parsed Nat :=
  if n < 10 then pure alpha
  else do
    let field ← slice p (off + 8) (off + 10)
    little 2 field

def pointerCapability (p : Bytes) (kind n : Nat) (c : Capabilities) : Parsed Capabilities :=
  if kind ≠ 8 then pure c
  else if c.pointerSeen ∨ n < 8 ∨ n = 9 then refuse "rdp: invalid pointer capability"
  else do
    let field ← slice p (c.off + 6) (c.off + 8)
    let colors ← little 2 field
    let alpha ← pointerAlpha p n c.off c.pointer.alpha
    pure { c with pointerSeen := true, pointer := { colors := colors, alpha := alpha } }

/-- One round of the loop over the capability sets. -/
def capability (p : Bytes) (update : Bool) (c : Capabilities) : Parsed Capabilities :=
  if (c.off : Int) > p.length - 4 then refuse "rdp: missing capability header"
  else do
    let field ← slice p c.off (c.off + 2)
    let kind ← little 2 field
    let field ← slice p (c.off + 2) (c.off + 4)
    let n ← little 2 field
    if n < 4 ∨ (n : Int) > p.length - c.off then refuse "rdp: invalid capability size"
    else do
      let c ← bitmapCapability p update kind n c
      let c ← pointerCapability p kind n c
      pure { c with off := c.off + n }

/-- Returns the colour depth of the session and the pointer capabilities. -/
def confirmActiveDepth (p : Bytes) (bitsPerPixel : Nat) (update : Bool) :
    Parsed (Nat × PointerCapabilities) :=
  if p.length < 20 then refuse "rdp: invalid Confirm Active"
  else do
    let field ← slice p 6 10
    let share ← little 4 field
    if share ≠ shareID then refuse "rdp: invalid Confirm Active"
    else do
      let field ← slice p 12 14
      let source ← little 2 field
      let off := 16 + source
      let field ← slice p 14 16
      let length ← little 2 field
      if (off : Int) > p.length - 4 ∨ length < 4 ∨ (length : Int) ≠ p.length - off then
        refuse "rdp: invalid Confirm Active capabilities"
      else do
        let field ← slice p off (off + 2)
        let count ← little 2 field
        let c ← times (fun _ => capability p update) count
          { off := off + 4, bitmap := false, pointerSeen := false
            pointer := { colors := 0, alpha := 0 }, bitsPerPixel := bitsPerPixel }
        if ¬ c.bitmap ∨ c.off ≠ p.length then refuse "rdp: incomplete capability data"
        else pure (c.bitsPerPixel, c.pointer)

/-! ## Graphics capabilities -/

def graphicsVersion81 : Nat := 0x00080105

def graphicsVersionSupportsAVC (version : Nat) : Bool :=
  version ∈ [0x000a0002, 0x000a0200, 0x000a0301, 0x000a0400, 0x000a0502, 0x000a0600, 0x000a0701]

/-- What the loop over the graphics capability sets carries. -/
structure Offer where
  rest : Bytes
  selected : Nat
  flags : Nat

def Offer.consider (o : Offer) (version flags : Nat) : Offer :=
  if version = graphicsVersion81 ∧ flags &&& 0x10 ≠ 0 then
    { o with selected := version, flags := flags &&& 3 ||| 0x10 }
  else if o.selected ≠ graphicsVersion81 ∧ graphicsVersionSupportsAVC version ∧ flags &&& 0x20 = 0 then
    { o with selected := version, flags := flags &&& 0x43 }
  else o

/-- Only sets of four bytes are considered. -/
def considerSet (o : Offer) (version size : Nat) : Parsed Offer :=
  if size ≠ 4 then pure o
  else do
    let field ← sliceFrom o.rest 8
    let flags ← little 4 field
    pure (o.consider version flags)

def graphicsCapability (o : Offer) : Parsed Offer :=
  if o.rest.length < 8 then refuse "rdp: truncated graphics capability"
  else do
    let version ← little 4 o.rest
    let field ← sliceFrom o.rest 4
    let size ← little 4 field
    if (size : Int) > o.rest.length - 8 then refuse "rdp: invalid graphics capability size"
    else do
      let o ← considerSet o version size
      let rest ← sliceFrom o.rest (8 + size)
      pure { o with rest := rest }

def selectGraphicsCapabilities (data : Bytes) : Parsed (Nat × Nat) :=
  if data.length < 2 then refuse "rdp: truncated graphics capabilities"
  else do
    let count ← little 2 data
    if count = 0 ∨ count > 64 then refuse "rdp: invalid graphics capability count"
    else do
      let rest ← sliceFrom data 2
      let o ← times (fun _ => graphicsCapability) count { rest := rest, selected := 0, flags := 0 }
      if o.rest.length ≠ 0 then refuse "rdp: trailing graphics capabilities"
      else pure (o.selected, o.flags)

end Gokvm.Rdp.Parser
