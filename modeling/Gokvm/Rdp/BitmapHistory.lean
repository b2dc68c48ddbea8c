import Gokvm.Rdp.BitmapTiles

/-! # What the client of a bitmap session sees

A screen is an encoder with the desktop of a client that paints what it is sent. The encoder's
packed picture is always the conversion of the last frame. A call whose sends succeed brings the
client there too, unless a tile that a failed call had delivered is back at what the encoder last
committed: it counts as unchanged and is not sent again.
-/

namespace Gokvm.Rdp

open Lib List Format BitmapEncoder

namespace BitmapEncoder

variable {e : BitmapEncoder} {img : RGBA}

/-! ## The packed picture -/

/-- The encoder after frames of which the last one was `img`. -/
structure Tracks (e : BitmapEncoder) (img : RGBA) : Prop where
  pixels : e.pixels.size = e.size
  previous : e.previous.size = e.size
  pending : e.pending.length = e.tiles
  source : e.source = img.rect
  shows : e.Shows e.pixels img
  idle : ∀ x y, x < e.width → y < e.height → e.pending.getD (e.tileAt x y) false = false →
    e.refresh = false ∧
      ∀ k, k < e.bytesPerPixel → e.pixels.byte (e.offset x y k) = e.previous.byte (e.offset x y k)

/-- An encoder that was given no frame yet, or one that tracks the last frame. -/
def Kept (e : BitmapEncoder) : Option RGBA → Prop
  | none => e = e.toFormat.fresh
  | some img => e.Tracks img

/-- Buffers of the right sizes in which no conversion has touched the spare bytes. -/
structure Allocated (e : BitmapEncoder) : Prop where
  pixels : e.pixels.size = e.size
  previous : e.previous.size = e.size
  pending : e.pending.length = e.tiles
  spare : e.Spare e.pixels

theorem size_pos (f : Format) : 0 < f.size :=
  Nat.mul_pos (Nat.mul_pos f.wide f.high) bytesPerPixel_pos

theorem Tracks.allocate_eq (tracks : e.Tracks img) : e.allocate = e := by
  have := size_pos e.toFormat
  rw [allocate, if_neg (by rw [tracks.pixels]; omega)]

theorem Tracks.allocated (tracks : e.Tracks img) : e.Allocated := by
  refine { tracks with spare := ?_ }
  intro x y k column row byte beyond
  rw [tracks.shows x y k column row byte]
  exact shade_beyond img x y beyond

theorem allocated_fresh (f : Format) : f.fresh.allocate.Allocated where
  pixels := rfl
  previous := rfl
  pending := length_replicate
  spare := fun _ _ _ _ _ _ _ => rfl

theorem mapped_within (f : Format) (sound : img.Sound) (regions : Option (List Rect)) (refresh : Bool) :
    ∀ region ∈ f.mapped img regions refresh, region.Within f.width f.height := by
  intro region member
  have whole : f.output.Within f.width f.height := Rect.within_whole f.width f.height
  unfold mapped at member
  cases regions with
  | none => exact mem_singleton.mp member ▸ whole
  | some regions =>
    cases refresh with
    | true => exact mem_singleton.mp member ▸ whole
    | false =>
      obtain ⟨given, _, rfl⟩ := mem_map.mp member
      exact map_within sound.wide sound.high f.wide f.high given

/-- Redrawing some parts tracks the frame, if the other pixels already had its colours. -/
theorem Allocated.redraw (allocated : e.Allocated) {mapped : List Rect}
    (within : ∀ region ∈ mapped, region.Within e.width e.height) {refresh : Bool}
    (rest : ∀ x y, x < e.width → y < e.height → (∀ region ∈ mapped, ¬ region.Contains x y) →
      (∀ k, k < e.bytesPerPixel → e.pixels.byte (e.offset x y k) = e.shade img x y k) ∧
        (e.pending.getD (e.tileAt x y) false = false → refresh = false ∧
          ∀ k, k < e.bytesPerPixel →
            e.pixels.byte (e.offset x y k) = e.previous.byte (e.offset x y k))) :
    (e.redraw img mapped refresh).Tracks img := by
  obtain ⟨sizePixels, sizePrevious, sizePending, spare⟩ := allocated
  have drawn : ∀ x y k, x < e.width → y < e.height → k < e.bytesPerPixel →
      (mapped.foldl (e.scaleRegion img) e.pixels).byte (e.offset x y k) = _ :=
    fun x y k column row byte => byte_scaleRegions img within spare column row byte
  refine { pixels := ?_, previous := sizePrevious, pending := ?_, source := rfl, shows := ?_, idle := ?_ }
  · exact size_foldl (fun region member dst size => size_scaleRegion img (within region member) size)
      e.pixels sizePixels
  · exact (length_markRegions mapped e.pending).trans sizePending
  · intro x y k column row byte
    refine (drawn x y k column row byte).trans ?_
    split
    · rfl
    next outside =>
      exact (rest x y column row fun region member inside => outside ⟨region, member, inside⟩).1 k byte
  · intro x y column row unmarked
    obtain ⟨before, outside⟩ := unmarked_regions within sizePending column row unmarked
    obtain ⟨quiet, same⟩ := (rest x y column row outside).2 before
    refine ⟨quiet, fun k byte => ?_⟩
    refine (drawn x y k column row byte).trans ?_
    rw [if_neg (by rintro ⟨region, member, inside⟩; exact outside region member inside)]
    exact same k byte

theorem Allocated.redraw_whole (allocated : e.Allocated) {mapped : List Rect} (whole : mapped = [e.output])
    (refresh : Bool) : (e.redraw img mapped refresh).Tracks img := by
  subst whole
  refine allocated.redraw (fun region member => ?_) (fun x y column row outside => ?_)
  · exact mem_singleton.mp member ▸ Rect.within_whole e.width e.height
  · refine absurd ?_ (outside e.output mem_cons_self)
    simp only [output, Rect.whole, Rect.Contains]
    omega

variable {x y : Nat}

theorem shade_eq_of_samples (f : Format) {old new : RGBA} (rects : old.rect = new.rect) (same : ∀ c, c < 3 →
      old.sample (near new.rect.dx.toNat f.width x) (near new.rect.dy.toNat f.height y) c =
        new.sample (near new.rect.dx.toNat f.width x) (near new.rect.dy.toNat f.height y) c) (k : Nat) :
    f.shade old x y k = f.shade new x y k := by
  simp only [shade, colour, rects, same 0 (by omega), same 1 (by omega), same 2 (by omega)]

/-- The packed picture is the conversion of the last frame, whatever was sent. -/
theorem Kept.convert {last : Option RGBA} (kept : e.Kept last) (accepted : validRGBA img = true)
    {regions : Option (List Rect)} (truthful : Truthful regions last img) (force : Bool) :
    (e.convert img regions force).Tracks img := by
  have sound := sound_of_validRGBA accepted
  unfold BitmapEncoder.convert
  cases last with
  | none =>
    -- The first frame is a refresh.
    have fresh : e = e.toFormat.fresh := kept
    rw [fresh]
    have whole : (e.toFormat.fresh.allocate.refresh || force ||
        decide (e.toFormat.fresh.allocate.source ≠ img.rect)) = true := rfl
    refine (allocated_fresh e.toFormat).redraw_whole ?_ _
    rw [whole]
    cases regions <;> rfl
  | some old =>
    have tracks : e.Tracks old := kept
    rw [tracks.allocate_eq]
    cases regions with
    | none => exact tracks.allocated.redraw_whole rfl _
    | some rects =>
      by_cases whole : (e.refresh || force || decide (e.source ≠ img.rect)) = true
      · refine tracks.allocated.redraw_whole ?_ _
        simp only [mapped, whole, if_true]
      · rw [Bool.not_eq_true] at whole
        have unmoved : old.rect = img.rect := by
          rw [← tracks.source]
          simp only [Bool.or_eq_false_iff, decide_eq_false_iff_not, not_not] at whole
          exact whole.2
        have covers := truthful rects old rfl rfl unmoved
        refine tracks.allocated.redraw (mapped_within e.toFormat sound _ _) ?_
        intro x y column row outside
        simp only [mapped, whole, Bool.false_eq_true, if_false, forall_mem_map] at outside
        have same := shade_eq_of_samples e.toFormat unmoved
          (fun c colour => covers.sample_eq sound column row colour outside)
        refine ⟨fun k byte => ?_, fun unmarked => ⟨whole, (tracks.idle x y column row unmarked).2⟩⟩
        rw [tracks.shows x y k column row byte]
        exact same k

/-! ## Sent tiles -/

section

variable (tracks : e.Tracks img)
include tracks

theorem Tracks.marked (column : x < e.width) (row : y < e.height)
    (send : e.refresh = true ∨ ¬ e.SameTile e.pixels e.previous (e.tileAt x y)) :
    e.pending.getD (e.tileAt x y) false = true := by
  by_contra unmarked
  rw [Bool.not_eq_true] at unmarked
  cases send with
  | inl refresh =>
    have quiet := (tracks.idle x y column row unmarked).1
    rw [refresh] at quiet
    cases quiet
  | inr differs =>
    refine differs fun x' y' k column' row' byte here => ?_
    exact (tracks.idle x' y' column' row' (here ▸ unmarked)).2 k byte

theorem Tracks.mem_outgoing (column : x < e.width) (row : y < e.height) :
    e.tileAt x y ∈ e.outgoing ↔ e.refresh = true ∨ ¬ e.SameTile e.pixels e.previous (e.tileAt x y) := by
  have inside : e.tileAt x y < e.tiles := tileAt_lt column row
  have sizes : e.previous.size = e.pixels.size := tracks.previous.trans tracks.pixels.symm
  have changed := unchanged_iff sizes inside
  simp only [outgoing, mem_filter, mem_range, tracks.pending, inside, true_and,
    Bool.and_eq_true, Bool.or_eq_true, Bool.not_eq_true', ← Bool.not_eq_true, changed]
  exact ⟨And.right, fun send => ⟨tracks.marked column row send, send⟩⟩

theorem Tracks.index_lt {p : Nat → Bool} {index : Nat}
    (member : index ∈ (range e.pending.length).filter p) : index < e.tiles := by
  rw [tracks.pending] at member
  exact mem_range.mp (mem_filter.mp member).1

/-- A call whose sends succeed leaves the frame exactly if every tile it did not send was right. -/
theorem Tracks.shows_sent_iff (desktop : Store) :
    e.Shows ((e.outgoing.map (e.tile e.pixels)).foldl (paint e.width) desktop) img ↔
      e.refresh = true ∨
        ∀ index, e.SameTile e.pixels e.previous index → e.SameTile desktop e.previous index := by
  have painted : ∀ x y k, x < e.width → y < e.height → k < e.bytesPerPixel → _ :=
    fun x y k column row byte =>
      byte_paints desktop e.pixels (fun _ (member : _ ∈ e.outgoing) => tracks.index_lt member) (k := k)
        column row byte
  constructor
  · intro shows
    by_cases refresh : e.refresh = true
    · exact Or.inl refresh
    · refine Or.inr fun index same x y k column row byte here => ?_
      have kept : ¬ e.tileAt x y ∈ e.outgoing := by
        rw [tracks.mem_outgoing column row, here]
        exact fun send => send.elim refresh (fun differs => differs same)
      have shown := shows x y k column row byte
      rw [painted x y k column row byte, if_neg kept, ← tracks.shows x y k column row byte] at shown
      exact shown.trans (same x y k column row byte here)
  · intro right x y k column row byte
    rw [painted x y k column row byte, ← tracks.shows x y k column row byte]
    split
    · rfl
    next kept =>
      rw [tracks.mem_outgoing column row, not_or, not_not] at kept
      have settled := right.resolve_left kept.1 _ kept.2
      exact (settled x y k column row byte rfl).trans (kept.2 x y k column row byte rfl).symm

theorem Tracks.byte_commit {k : Nat} (column : x < e.width) (row : y < e.height)
    (byte : k < e.bytesPerPixel) :
    e.commit.previous.byte (e.offset x y k) = e.pixels.byte (e.offset x y k) := by
  refine (byte_commitTiles e.pixels e.previous (fun _ => tracks.index_lt) column row byte).trans ?_
  split
  · rfl
  next kept =>
    have inside : e.tileAt x y < e.tiles := tileAt_lt column row
    simp only [mem_filter, mem_range, tracks.pending, inside, true_and,
      Bool.not_eq_true] at kept
    exact ((tracks.idle x y column row kept).2 k byte).symm

theorem Tracks.commit : e.commit.Tracks img := by
  refine { tracks with previous := ?_, pending := ?_, idle := ?_ }
  · exact size_foldl (fun _ member _ size => size_commitTile e.pixels (tracks.index_lt member) size)
      e.previous tracks.previous
  · exact (length_map _).trans tracks.pending
  · intro x y column row _
    exact ⟨rfl, fun k byte => (tracks.byte_commit column row byte).symm⟩

end

/-! ## Calls -/

section Accepted

variable (accepted : validRGBA img = true) (regions : Option (List Rect)) (force : Bool)

include accepted

theorem writeFrameDamage_accepted (failure : Option Nat) :
    e.writeFrameDamage (some img) regions force failure =
      let e := e.convert img regions force
      let payloads := e.outgoing.map (e.tile e.pixels)
      match failure with
      | none => { error := none, sent := payloads, encoder := e.commit }
      | some n =>
        if n < payloads.length then { error := some .send, sent := payloads.take n, encoder := e }
        else { error := none, sent := payloads, encoder := e.commit } := by
  have some : ¬ img.rect.Empty := by
    intro empty
    simp [validRGBA, empty] at accepted
  have valid : ¬ (!validRGBA img) = true := by simp [accepted]
  exact (if_neg some).trans (if_neg valid)

theorem writeFrameDamage_sent {failure : Option Nat}
    (succeeds : (e.writeFrameDamage (some img) regions force failure).error = none) :
    e.writeFrameDamage (some img) regions force failure =
      let e := e.convert img regions force
      { error := none, sent := e.outgoing.map (e.tile e.pixels), encoder := e.commit } := by
  rw [writeFrameDamage_accepted accepted] at succeeds ⊢
  cases failure with
  | none => rfl
  | some n =>
    simp only at succeeds ⊢
    split at succeeds
    · cases succeeds
    next all => rw [if_neg all]

theorem Kept.write {last : Option RGBA} (kept : e.Kept last) (truthful : Truthful regions last img)
    (failure : Option Nat) :
    (e.writeFrameDamage (some img) regions force failure).encoder.Tracks img := by
  have tracks := kept.convert accepted truthful force
  rw [writeFrameDamage_accepted accepted]
  cases failure with
  | none => exact tracks.commit
  | some n =>
    simp only
    split
    · exact tracks
    · exact tracks.commit

end Accepted

theorem toFormat_convert (e : BitmapEncoder) (img : RGBA) (regions : Option (List Rect)) (force : Bool) :
    (e.convert img regions force).toFormat = e.toFormat := by
  simp only [convert, redraw, allocate]
  split <;> rfl

end BitmapEncoder

/-! ## Histories -/

structure BitmapCall where
  img : Option RGBA
  regions : Option (List Rect)
  force : Bool
  failure : Option Nat

def BitmapCall.frame (c : BitmapCall) : Option RGBA := c.img.filter fun img => validRGBA img

/-- An encoder, the last frame it took and the desktop of its client. -/
structure Screen where
  encoder : BitmapEncoder
  last : Option RGBA
  client : Store

open Screen

namespace Screen

def write (s : Screen) (c : BitmapCall) : BitmapOutcome :=
  s.encoder.writeFrameDamage c.img c.regions c.force c.failure

/-- The client paints what reached it. -/
def step (s : Screen) (c : BitmapCall) : Screen where
  encoder := (s.write c).encoder
  last := c.frame.or s.last
  client := (s.write c).sent.foldl (paint s.encoder.width) s.client

def run (s : Screen) (calls : List BitmapCall) : Screen := calls.foldl step s

/-- The damage of every call tells what changed since the last frame. -/
def Truthful (s : Screen) : List BitmapCall → Prop
  | [] => True
  | c :: rest => (∀ img, c.frame = some img → Rdp.Truthful c.regions s.last img) ∧ (s.step c).Truthful rest

variable {c : BitmapCall} {s : Screen} {calls : List BitmapCall}

theorem frame_eq_some {img : RGBA} (frame : c.frame = some img) :
    c.img = some img ∧ validRGBA img = true := by
  unfold BitmapCall.frame at frame
  exact Option.filter_eq_some_iff.mp frame

theorem write_refused (s : Screen) (refused : c.frame = none) :
    (s.write c).sent = [] ∧ (s.write c).encoder = s.encoder := by
  unfold write writeFrameDamage
  unfold BitmapCall.frame at refused
  cases given : c.img with
  | none => exact ⟨rfl, rfl⟩
  | some img =>
    rw [given] at refused
    have invalid : validRGBA img = false := by
      by_contra accepted
      rw [Bool.not_eq_false] at accepted
      simp [Option.filter, accepted] at refused
    simp only [invalid, Bool.not_false, if_true]
    split <;> exact ⟨rfl, rfl⟩

theorem step_refused (s : Screen) (refused : c.frame = none) : s.step c = s := by
  obtain ⟨quiet, same⟩ := s.write_refused refused
  unfold step
  rw [quiet, same, refused]
  rfl

theorem kept_step (kept : s.encoder.Kept s.last)
    (truthful : ∀ img, c.frame = some img → Rdp.Truthful c.regions s.last img) :
    (s.step c).encoder.Kept (s.step c).last := by
  cases taken : c.frame with
  | none => rwa [step_refused s taken]
  | some img =>
    obtain ⟨given, accepted⟩ := frame_eq_some taken
    have tracks := BitmapEncoder.Kept.write accepted c.regions c.force kept (truthful img taken) c.failure
    simp only [step, write, given, taken, Option.some_or]
    exact tracks

theorem kept_run (kept : s.encoder.Kept s.last) (truthful : s.Truthful calls) : (s.run calls).encoder.Kept (s.run calls).last := by
  induction calls generalizing s with
  | nil => exact kept
  | cons c rest ih => exact ih (kept_step kept truthful.1) truthful.2

theorem truthful_append {rest : List BitmapCall} (truthful : s.Truthful (calls ++ rest)) :
    s.Truthful calls ∧ (s.run calls).Truthful rest := by
  induction calls generalizing s with
  | nil => exact ⟨trivial, truthful⟩
  | cons c calls ih =>
    obtain ⟨before, after⟩ := ih truthful.2
    exact ⟨⟨truthful.1, before⟩, after⟩

theorem format_write (s : Screen) (c : BitmapCall) : (s.write c).encoder.toFormat = s.encoder.toFormat := by
  cases taken : c.frame with
  | none => rw [(s.write_refused taken).2]
  | some img =>
    obtain ⟨given, accepted⟩ := frame_eq_some taken
    have converted := s.encoder.toFormat_convert img c.regions c.force
    rw [write, given, writeFrameDamage_accepted accepted]
    cases c.failure with
    | none => exact converted
    | some n =>
      simp only
      split <;> exact converted

theorem format_run (s : Screen) (calls : List BitmapCall) :
    (s.run calls).encoder.toFormat = s.encoder.toFormat := by
  induction calls generalizing s with
  | nil => rfl
  | cons c rest ih => exact (ih (s.step c)).trans (s.format_write c)

/-- The next frame is converted and sent as a whole. -/
def Refreshes (s : Screen) (img : RGBA) (force : Bool) : Prop :=
  s.last = none ∨ s.encoder.refresh = true ∨ force = true ∨ s.encoder.source ≠ img.rect

/-- Every tile that is in the frame what the encoder last committed is so on the client. -/
def Settled (s : Screen) (img : RGBA) : Prop :=
  ∀ index,
    (∀ x y k, x < s.encoder.width → y < s.encoder.height → k < s.encoder.bytesPerPixel →
      s.encoder.tileAt x y = index →
      s.encoder.shade img x y k = s.encoder.previous.byte (s.encoder.offset x y k)) →
    s.encoder.SameTile s.client s.encoder.previous index

/-- A call that succeeds leaves the frame exactly if it refreshes everything or no tile is back at
    what was committed while the client has another. -/
theorem shows_step_iff (kept : s.encoder.Kept s.last) {img : RGBA} (frame : c.frame = some img)
    (truthful : Rdp.Truthful c.regions s.last img) (succeeds : (s.write c).error = none) :
    s.encoder.Shows (s.step c).client img ↔ s.Refreshes img c.force ∨ s.Settled img := by
  obtain ⟨given, accepted⟩ := frame_eq_some frame
  have tracks := kept.convert accepted truthful c.force
  have format := s.encoder.toFormat_convert img c.regions c.force
  unfold write at succeeds
  rw [given] at succeeds
  have sent := writeFrameDamage_sent accepted c.regions c.force succeeds
  generalize made : s.encoder.convert img c.regions c.force = e at tracks format sent
  have client : (s.step c).client =
      (e.outgoing.map (s.encoder.tile e.pixels)).foldl (paint s.encoder.width) s.client := by
    simp only [step, write, given, sent, format]
  have shown := tracks.shows_sent_iff s.client
  have shades := tracks.shows
  simp only [format] at shown shades
  rw [client, shown]
  cases before : s.last with
  | none =>
    have fresh : s.encoder = s.encoder.toFormat.fresh := by
      rw [before] at kept
      exact kept
    have refresh : e.refresh = true := by
      rw [← made, fresh]
      rfl
    exact iff_of_true (Or.inl refresh) (Or.inl (Or.inl before))
  | some old =>
    have committed : s.encoder.Tracks old := by
      rw [before] at kept
      exact kept
    have refresh : e.refresh = true ↔ s.Refreshes img c.force := by
      unfold Refreshes
      rw [← made, BitmapEncoder.convert, committed.allocate_eq, before]
      simp [redraw, or_assoc]
    have previous : e.previous = s.encoder.previous := by
      rw [← made, BitmapEncoder.convert, committed.allocate_eq]
      rfl
    rw [refresh, previous]
    have tile : ∀ index, s.encoder.SameTile e.pixels s.encoder.previous index ↔ _ := fun index =>
      forall_congr' fun x => forall_congr' fun y => forall_congr' fun k =>
        forall_congr' fun column => forall_congr' fun row => forall_congr' fun byte => by
          rw [shades x y k column row byte]
    simp only [tile]
    rfl

theorem run_append (s : Screen) (calls rest : List BitmapCall) :
    s.run (calls ++ rest) = (s.run calls).run rest :=
  foldl_append

/-- Nothing is left over from the last call: the client shows its frame. -/
structure UpToDate (s : Screen) : Prop where
  shows : ∀ img, s.last = some img → s.encoder.Shows s.client img
  idle : ∀ index, s.encoder.pending.getD index false = false

theorem UpToDate.settled (fresh : s.UpToDate) {old : RGBA} (last : s.last = some old)
    (tracks : s.encoder.Tracks old) (img : RGBA) : s.Settled img := by
  intro index _ x y k column row byte _
  rw [fresh.shows old last x y k column row byte, ← tracks.shows x y k column row byte]
  exact (tracks.idle x y column row (fresh.idle _)).2 k byte

theorem upToDate_step (kept : s.encoder.Kept s.last) (fresh : s.UpToDate)
    (truthful : ∀ img, c.frame = some img → Rdp.Truthful c.regions s.last img) (sends : c.failure = none) : (s.step c).UpToDate := by
  cases taken : c.frame with
  | none => rwa [step_refused s taken]
  | some img =>
    obtain ⟨given, accepted⟩ := frame_eq_some taken
    have sent := writeFrameDamage_accepted (e := s.encoder) accepted c.regions c.force none
    have succeeds : (s.write c).error = none := by
      rw [write, given, sends, sent]
    have right : s.Refreshes img c.force ∨ s.Settled img := by
      cases before : s.last with
      | none => exact Or.inl (Or.inl before)
      | some old =>
        rw [before] at kept
        exact Or.inr (fresh.settled before kept img)
    constructor
    · intro shown last
      obtain rfl : img = shown := by
        simpa only [step, taken, Option.some_or, Option.some.injEq] using last
      have format : (s.step c).encoder.toFormat = s.encoder.toFormat := s.format_write c
      rw [format]
      exact (shows_step_iff kept taken (truthful img taken) succeeds).mpr right
    · intro index
      simp only [step, write, given, sends, sent, commit, map_const',
        getD_eq_getElem?_getD, getElem?_replicate]
      split <;> rfl

theorem upToDate_run (kept : s.encoder.Kept s.last) (fresh : s.UpToDate) (truthful : s.Truthful calls)
    (sends : ∀ c ∈ calls, c.failure = none) : (s.run calls).UpToDate := by
  induction calls generalizing s with
  | nil => exact fresh
  | cons c rest ih =>
    exact ih (kept_step kept truthful.1)
      (upToDate_step kept fresh truthful.1 (sends c mem_cons_self)) truthful.2
      (fun other member => sends other (mem_cons_of_mem _ member))

def start (e : BitmapEncoder) (client : Store) : Screen := { encoder := e, last := none, client := client }

theorem fresh_of_new {width height bitsPerPixel : Int} {e : BitmapEncoder}
    (made : newBitmapEncoder width height bitsPerPixel = .ok e) : e = e.toFormat.fresh := by
  unfold newBitmapEncoder at made
  split at made
  · cases made
    rfl
  · cases made

end Screen

namespace Screen

/-- Two pixels, of which the left one is black. -/
def twoPixels (right : UInt8) : RGBA where
  rect := .whole 2 1
  stride := 8
  pix := [0, 0, 0, 255, right, right, right, 255]

def fullCall (img : RGBA) (failure : Option Nat) : BitmapCall :=
  { img := some img, regions := none, force := false, failure := failure }

theorem truthful_fullCall (s : Screen) (img : RGBA) (failure : Option Nat) :
    ∀ shown, (fullCall img failure).frame = some shown → Rdp.Truthful (fullCall img failure).regions s.last shown := by
  intro shown _ rects old given
  cases given

end Screen

/-- After calls that may have failed, a call that succeeds leaves its frame on the client
    exactly if it refreshes everything, or no tile is in the frame what the encoder last
    committed while the client shows a later, delivered one. -/
theorem bitmap_retry_shows_frame_iff {width height bitsPerPixel : Int} {e : BitmapEncoder}
    (made : newBitmapEncoder width height bitsPerPixel = .ok e) (client : Store)
    (calls : List BitmapCall) (c : BitmapCall) {img : RGBA} (frame : c.frame = some img)
    (truthful : (start e client).Truthful (calls ++ [c]))
    (succeeds : (((start e client).run calls).write c).error = none) :
    e.Shows ((start e client).run (calls ++ [c])).client img ↔
      ((start e client).run calls).Refreshes img c.force ∨
        ((start e client).run calls).Settled img := by
  have start : (start e client).encoder.Kept (start e client).last := fresh_of_new made
  obtain ⟨before, last⟩ := truthful_append truthful
  have kept := kept_run start before
  have shown := shows_step_iff kept frame (last.1 img frame) succeeds
  rw [format_run] at shown
  rw [run_append]
  exact shown

/-- The frame after a failed call is the one before it: the tile that the failed call delivered
    is taken for unchanged and stays on the client. -/
theorem bitmap_retry_keeps_delivered_tile : ∃ e, newBitmapEncoder 65 1 16 = .ok e ∧
    let first := fullCall (twoPixels 0) none
    let failed := fullCall (twoPixels 255) (some 1)
    let s := (start e (.blank 0)).run [first, failed]
    (start e (.blank 0)).Truthful [first, failed, first] ∧
      (((start e (.blank 0)).run [first]).write failed).error = some .send ∧
      (s.write first).error = none ∧ ¬ e.Shows (s.step first).client (twoPixels 0) := by
  refine ⟨_, rfl, ?_, ?_, ?_, ?_⟩
  · exact ⟨truthful_fullCall _ _ _, truthful_fullCall _ _ _, truthful_fullCall _ _ _,
      trivial⟩
  · decide +kernel
  · decide +kernel
  · intro shows
    have pixel := shows 33 0 0 (by decide) (by decide) (by decide)
    revert pixel
    decide +kernel

/-- A first frame that failed is sent again as a whole. -/
theorem bitmap_retry_shows_two_pixels : ∃ e, newBitmapEncoder 65 1 16 = .ok e ∧
    let failed := fullCall (twoPixels 255) (some 1)
    let again := fullCall (twoPixels 255) none
    e.Shows ((start e (.blank 0)).run ([failed] ++ [again])).client (twoPixels 255) :=
  ⟨_, rfl, (bitmap_retry_shows_frame_iff (show newBitmapEncoder 65 1 16 = .ok _ from rfl) (.blank 0)
    [fullCall (twoPixels 255) (some 1)] (fullCall (twoPixels 255) none) rfl
    ⟨truthful_fullCall _ _ _, truthful_fullCall _ _ _, trivial⟩ (by decide +kernel)).mpr
      (Or.inl (Or.inr (Or.inl (by decide +kernel))))⟩

end Gokvm.Rdp
