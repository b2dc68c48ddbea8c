import Gokvm.Rdp.AvcPlanes

/-! # Histories of the H.264 encoder

A recording is an encoder with everything it asked of its codecs. After each frame the
retained picture is the full conversion of the frame. The codec is left alone only when it
already encoded that picture, and what follows a failed request is a request for a key frame.
-/

namespace Gokvm.Rdp

open Lib List AvcFormat

namespace AvcEncoder

variable {e : AvcEncoder} {img : RGBA}

/-! ## Conversion -/

/-- What an open encoder knows of the last frame. -/
structure Tracks (e : AvcEncoder) (last : Option RGBA) : Prop where
  size : e.i420.size = e.size
  started : e.initialized = last.isSome
  source : ∀ old, last = some old → e.source = old.rect
  exact : ∀ old, last = some old → e.Converts e.i420 old

theorem mapped_grid (e : AvcEncoder) (sound : img.Sound) (regions : Option (List Rect)) (force : Bool) :
    ∀ region ∈ e.mapped img regions force, region.Within e.width e.height ∧ Paired region := by
  have whole : e.output.Within e.width e.height ∧ Paired e.output := by
    refine ⟨Rect.within_whole e.width e.height, ?_⟩
    have evenWidth := e.evenWidth
    have evenHeight := e.evenHeight
    constructor <;> simp only [output, Rect.whole] <;> omega
  intro region member
  unfold mapped at member
  cases regions with
  | none => exact mem_singleton.mp member ▸ whole
  | some regions =>
    simp only at member
    split at member
    · exact mem_singleton.mp member ▸ whole
    · obtain ⟨given, _, rfl⟩ := mem_map.mp member
      have wide : 0 < e.width := by have := e.wide; omega
      have high : 0 < e.height := by have := e.high; omega
      have inside := map_within sound.wide sound.high wide high given
      obtain ⟨within, paired, _⟩ := align_two inside e.evenWidth e.evenHeight
      exact ⟨within, paired⟩

theorem contains_output {cell : Cell} (inside : e.Inside cell) :
    e.output.Contains (2 * cell.block.1 : Nat) (2 * cell.block.2 : Nat) := by
  have evenWidth := e.evenWidth
  have evenHeight := e.evenHeight
  cases cell <;> simp only [AvcFormat.Inside, Cell.block, output, Rect.whole, Rect.Contains] at inside ⊢ <;>
    omega

variable {last : Option RGBA} {force : Bool}

/-- After a frame the retained picture is the full conversion of the frame. -/
theorem Tracks.convert (tracks : e.Tracks last) (accepted : validRGBA img = true)
    {regions : Option (List Rect)} (truthful : Truthful regions last img) (force : Bool) :
    (e.convert img regions force).1.Tracks (some img) := by
  have sound := sound_of_validRGBA accepted
  have grid := e.mapped_grid sound regions force
  have size := (quiet_scaleRegions grid img (e.i420, !e.initialized || e.retry) tracks.size).1
  refine { size, started := rfl, source := ?_, exact := ?_ }
  · intro old same
    cases same
    rfl
  · intro old same
    cases same
    refine { size, cells := fun cell inside => ?_ }
    refine (byte_scaleRegions grid img _ inside).trans ?_
    split
    · rfl
    next outside =>
      -- Only a partial conversion leaves a cell out.
      cases regions with
      | none => exact absurd ⟨e.output, mem_cons_self, contains_output inside⟩ outside
      | some rects =>
        simp only [mapped] at outside
        split at outside
        · exact absurd ⟨e.output, mem_cons_self, contains_output inside⟩ outside
        next partly =>
          simp only [Bool.or_eq_true, Bool.not_eq_true', decide_eq_true_eq, not_or, not_not,
            Bool.not_eq_false] at partly
          obtain ⟨⟨_, started⟩, source⟩ := partly
          obtain ⟨old, before⟩ : ∃ old, last = some old :=
            Option.isSome_iff_exists.mp (tracks.started ▸ started)
          have unmoved : old.rect = img.rect := (tracks.source old before).symm.trans source
          have covers := truthful rects old rfl before unmoved
          rw [(tracks.exact old before).cells cell inside]
          refine value_eq_of_covers covers sound unmoved inside fun rect member contained => ?_
          exact outside ⟨_, mem_map_of_mem member, contained⟩

theorem Tracks.convert_unchanged (tracks : e.Tracks last) (sound : img.Sound) {regions : Option (List Rect)}
    (quiet : (e.convert img regions force).2 = false) :
    e.initialized = true ∧ e.retry = false ∧ (e.convert img regions force).1.i420 = e.i420 := by
  have grid := e.mapped_grid sound regions force
  obtain ⟨_, same⟩ := quiet_scaleRegions grid img (e.i420, !e.initialized || e.retry) tracks.size
  obtain ⟨flags, picture⟩ := same quiet
  simp only [Bool.or_eq_false_iff, Bool.not_eq_false'] at flags
  exact ⟨flags.1, flags.2, picture⟩

/-! ## Requests -/

/-- What a call that asks the codec does: its last request decides. -/
structure Asked (e : AvcEncoder) (force : Bool) (outcome : AvcOutcome) : Prop where
  format : outcome.encoder.toAvcFormat = e.toAvcFormat
  picture : outcome.encoder.i420 = e.i420
  source : outcome.encoder.source = e.source
  started : outcome.encoder.initialized = e.initialized
  runs : outcome.encoder.codec ≠ none
  requests : ∃ key ok,
    (outcome.requests = [e.request (force || e.retry) ok] ∧ key = (force || e.retry) ∨
      outcome.requests = [e.request (force || e.retry) false, e.request true ok] ∧ key = true) ∧
    outcome.requests.getLast? = some (e.request key ok) ∧
    outcome.encoder.retry = !ok ∧
    (ok = true → ∃ unit, outcome.result = .ok (some unit)) ∧
    (ok = false → outcome.result = .error .codec)

theorem asked_finish (e : AvcEncoder) (codec : Backend) (data : Option AccessUnit)
    {requests : List Request} {key : Bool}
    (ends : requests = [e.request (force || e.retry) data.isSome] ∧ key = (force || e.retry) ∨
      requests = [e.request (force || e.retry) false, e.request true data.isSome] ∧ key = true) :
    e.Asked force (e.finish requests codec data) where
  format := rfl
  picture := rfl
  source := rfl
  started := rfl
  runs := by simp [finish]
  requests := by
    refine ⟨key, data.isSome, ends, ?_, ?_⟩
    · rcases ends with ⟨rfl, rfl⟩ | ⟨rfl, rfl⟩ <;> rfl
    · cases data <;> simp [finish]

theorem asked (e : AvcEncoder) (backend : Backend) (force : Bool) (replies : Replies) :
    e.Asked force (e.ask backend force replies) := by
  unfold ask
  cases replies.first with
  | some unit => exact e.asked_finish backend (some unit) (Or.inl ⟨rfl, rfl⟩)
  | none =>
    simp only
    split
    · split
      · exact e.asked_finish .software replies.second (Or.inr ⟨rfl, rfl⟩)
      · exact e.asked_finish backend none (Or.inl ⟨rfl, rfl⟩)
    · exact e.asked_finish backend none (Or.inl ⟨rfl, rfl⟩)

/-- What an open encoder knows of its requests. -/
structure Follows (e : AvcEncoder) (trace : List Request) : Prop where
  chain : trace.IsChain fun a b => a.ok = false → b.key = true
  retry : ∀ r, trace.getLast? = some r → e.retry = !r.ok
  fresh : trace = [] → e.retry = false
  picture : e.initialized = true → e.retry = false →
    ∃ r, trace.getLast? = some r ∧ r.ok = true ∧ r.picture = e.i420

theorem Asked.tracks {outcome : AvcOutcome} (asked : e.Asked force outcome) (tracks : e.Tracks last) : outcome.encoder.Tracks last := by
  obtain ⟨format, picture, source, started, _, _⟩ := asked
  refine { size := ?_, started := started.trans tracks.started, source := ?_, exact := ?_ }
  · rw [picture, format]
    exact tracks.size
  · rw [source]
    exact tracks.source
  · rw [picture, format]
    exact tracks.exact

/-- Requests after a failed one are for key frames. -/
theorem Asked.follows {trace : List Request} {outcome : AvcOutcome} (asked : e.Asked force outcome)
    (chain : trace.IsChain fun a b => a.ok = false → b.key = true)
    (resumes : ∀ r, trace.getLast? = some r → e.retry = !r.ok) :
    outcome.encoder.Follows (trace ++ outcome.requests) := by
  obtain ⟨_, picture, _, _, _, key, ok, requests, last, retry, _, _⟩ := asked
  have ends : (trace ++ outcome.requests).getLast? = some (e.request key ok) := by
    rw [getLast?_append, last]
    rfl
  have first : ∀ r, trace.getLast? = some r → r.ok = false → (force || e.retry) = true := by
    intro r before failed
    rw [resumes r before, failed, Bool.not_false, Bool.or_true]
  constructor
  · rw [isChain_append]
    refine ⟨chain, ?_, ?_⟩
    · rcases requests with ⟨shape, _⟩ | ⟨shape, _⟩
      · rw [shape]
        exact isChain_singleton _
      · rw [shape]
        simp [request]
    · intro r before next start
      rcases requests with ⟨shape, _⟩ | ⟨shape, _⟩ <;>
      · rw [shape] at start
        obtain rfl : e.request (force || e.retry) _ = next := Option.some.inj start
        exact first r before
  · intro r here
    rw [ends] at here
    obtain rfl := Option.some.inj here
    exact retry
  · intro none
    rw [none] at ends
    cases ends
  · intro _ settled
    rw [retry, Bool.not_eq_false'] at settled
    exact ⟨_, ends, settled, picture.symm⟩

theorem encodeDamage_accepted {backend : Backend} (codec : e.codec = some backend)
    (accepted : validRGBA img = true) (regions : Option (List Rect)) (force : Bool) (replies : Replies) :
    e.encodeDamage (some img) regions force replies =
      if !force && !(e.convert img regions force).2 then
        { result := .ok none, requests := [], encoder := (e.convert img regions force).1 }
      else (e.convert img regions force).1.ask backend force replies := by
  simp only [encodeDamage, codec, Option.filter, accepted, if_true]

end AvcEncoder

/-! ## Recordings -/

structure AvcCall where
  img : Option RGBA
  regions : Option (List Rect)
  force : Bool
  replies : Replies

def AvcCall.frame (c : AvcCall) : Option RGBA := c.img.filter fun img => validRGBA img

inductive AvcOp
  | encode (c : AvcCall)
  | close

/-- An encoder, the last frame it took and everything it asked of its codecs. -/
structure Recording where
  encoder : AvcEncoder
  last : Option RGBA
  trace : List Request

open Recording

namespace Recording

def encode (s : Recording) (c : AvcCall) : AvcOutcome :=
  s.encoder.encodeDamage c.img c.regions c.force c.replies

def step (s : Recording) : AvcOp → Recording
  | .encode c =>
    { encoder := (s.encode c).encoder
      last := if s.encoder.codec.isSome then c.frame.or s.last else s.last
      trace := s.trace ++ (s.encode c).requests }
  | .close => { s with encoder := s.encoder.close }

def run (s : Recording) (ops : List AvcOp) : Recording := ops.foldl step s

/-- The damage of a call tells what changed since the last frame. -/
def Honest (s : Recording) : AvcOp → Prop
  | .encode c => ∀ img, c.frame = some img → Truthful c.regions s.last img
  | .close => True

def Truthful (s : Recording) : List AvcOp → Prop
  | [] => True
  | op :: rest => s.Honest op ∧ (s.step op).Truthful rest

/-- What holds after every operation; a closed encoder keeps no picture. -/
structure Kept (s : Recording) : Prop where
  chain : s.trace.IsChain fun a b => a.ok = false → b.key = true
  tracks : s.encoder.codec ≠ none → s.encoder.Tracks s.last
  follows : s.encoder.codec ≠ none → s.encoder.Follows s.trace

variable {c : AvcCall} {s : Recording}

theorem frame_eq_some {img : RGBA} (frame : c.frame = some img) :
    c.img = some img ∧ validRGBA img = true :=
  Option.filter_eq_some_iff.mp frame

/-- What a call with a frame does to an open encoder. -/
structure Encoded (s : Recording) (c : AvcCall) (img : RGBA) : Prop where
  tracks : (s.encode c).encoder.Tracks (some img)
  follows : (s.encode c).encoder.Follows (s.trace ++ (s.encode c).requests)
  silent : (s.encode c).result = .ok none →
    c.force = false ∧
      ∃ r, s.trace.getLast? = some r ∧ r.ok = true ∧ r.picture = (s.encode c).encoder.i420
  output : ∀ unit, (s.encode c).result = .ok (some unit) →
    ∃ r, (s.encode c).requests.getLast? = some r ∧ r.ok = true ∧ r.picture = (s.encode c).encoder.i420

theorem Kept.encode (kept : s.Kept) {img : RGBA} (frame : c.frame = some img)
    (opened : s.encoder.codec ≠ none) (truthful : Rdp.Truthful c.regions s.last img) : s.Encoded c img := by
  obtain ⟨given, accepted⟩ := frame_eq_some frame
  obtain ⟨backend, codec⟩ := Option.ne_none_iff_exists'.mp opened
  have before := kept.tracks opened
  have follows := kept.follows opened
  have tracks := before.convert accepted truthful c.force
  have shape : s.encode c = _ :=
    given ▸ AvcEncoder.encodeDamage_accepted codec accepted c.regions c.force c.replies
  split at shape
  next quiet =>
    simp only [Bool.and_eq_true, Bool.not_eq_true'] at quiet
    obtain ⟨started, settled, same⟩ := before.convert_unchanged (sound_of_validRGBA accepted) quiet.2
    have shown := follows.picture started settled
    rw [← same] at shown
    refine { tracks := ?_, follows := ?_, silent := ?_, output := ?_ } <;> rw [shape]
    · exact tracks
    · rw [append_nil]
      exact { follows with picture := fun _ _ => shown }
    · exact fun _ => ⟨quiet.1, shown⟩
    · exact nofun
  · have asked := (s.encoder.convert img c.regions c.force).1.asked backend c.force c.replies
    obtain ⟨key, ok, _, last, _, good, bad⟩ := asked.requests
    refine { tracks := ?_, follows := ?_, silent := ?_, output := ?_ } <;> rw [shape]
    · exact asked.tracks tracks
    · exact asked.follows follows.chain follows.retry
    · intro none
      cases ok with
      | true =>
        obtain ⟨unit, result⟩ := good rfl
        rw [result] at none
        cases none
      | false =>
        rw [bad rfl] at none
        cases none
    · intro unit result
      cases ok with
      | true => exact ⟨_, last, rfl, asked.picture.symm⟩
      | false =>
        rw [bad rfl] at result
        cases result

theorem step_idle (idle : s.encoder.codec = none ∨ c.frame = none) : s.step (.encode c) = s := by
  rcases idle with closed | refused
  · simp [step, encode, AvcEncoder.encodeDamage, closed]
  · have filtered : (c.img.filter fun img => validRGBA img) = none := refused
    cases codec : s.encoder.codec with
    | none | some _ => simp [step, encode, AvcEncoder.encodeDamage, codec, filtered, refused]

theorem Kept.step (kept : s.Kept) {op : AvcOp} (honest : s.Honest op) : (s.step op).Kept := by
  cases op with
  | close =>
    have closed : s.encoder.close.codec = none := by
      unfold AvcEncoder.close
      split
      · rfl
      next none => simpa using none
    exact
      { chain := kept.chain
        tracks := fun opened => absurd closed opened
        follows := fun opened => absurd closed opened }
  | encode c =>
    by_cases opened : s.encoder.codec = none
    · rw [step_idle (.inl opened)]
      exact kept
    · cases frame : c.frame with
      | none =>
        rw [step_idle (.inr frame)]
        exact kept
      | some img =>
        obtain ⟨tracks, follows, _, _⟩ := kept.encode frame opened (honest img frame)
        have some : s.encoder.codec.isSome = true := Option.isSome_iff_ne_none.mpr opened
        refine { chain := follows.chain, tracks := fun _ => ?_, follows := fun _ => follows }
        simp only [Recording.step, some, if_true, frame, Option.some_or]
        exact tracks

theorem Kept.run (kept : s.Kept) {ops : List AvcOp} (truthful : s.Truthful ops) :
    (s.run ops).Kept := by
  induction ops generalizing s with
  | nil => exact kept
  | cons op rest ih => exact ih (kept.step truthful.1) truthful.2

theorem truthful_append {ops rest : List AvcOp} (truthful : s.Truthful (ops ++ rest)) :
    s.Truthful ops ∧ (s.run ops).Truthful rest := by
  induction ops generalizing s with
  | nil => exact ⟨trivial, truthful⟩
  | cons op ops ih =>
    obtain ⟨before, after⟩ := ih truthful.2
    exact ⟨⟨truthful.1, before⟩, after⟩

def start (e : AvcEncoder) : Recording := { encoder := e, last := none, trace := [] }

theorem kept_start {width height : Int} {options : AvcOptions} {nvenc software : Bool} {e : AvcEncoder}
    (made : newEncoder width height options nvenc software = .ok e) : (start e).Kept := by
  have new : e.i420.size = e.size ∧ e.initialized = false ∧ e.retry = false := by
    unfold newEncoder at made
    split at made
    · dsimp only at made
      generalize (if options.frameRate = 0 then 60 else options.frameRate) = frameRate at made
      split at made
      · cases made
      · split at made
        · cases made
        · split at made
          · cases made
          · cases made
            exact ⟨rfl, rfl, rfl⟩
    · cases made
  refine
    { chain := isChain_nil
      tracks := fun _ => { size := new.1, started := new.2.1, source := ?_, exact := ?_ }
      follows := fun _ =>
        { chain := isChain_nil, retry := ?_, fresh := fun _ => new.2.2, picture := ?_ } }
  · exact nofun
  · exact nofun
  · exact nofun
  · intro started
    have fresh : e.initialized = true := started
    rw [new.2.1] at fresh
    cases fresh

/-- The first success after a failure is a key frame. -/
theorem key_of_chain {trace before rest : List Request} {failed r : Request}
    (chain : trace.IsChain fun a b => a.ok = false → b.key = true) (split : trace = before ++ failed :: rest)
    (failure : failed.ok = false) (next : rest.find? (·.ok) = some r) : r.key = true := by
  subst split
  have tail : (failed :: rest).IsChain fun a b => a.ok = false → b.key = true :=
    (isChain_append.mp chain).2.1
  clear chain
  induction rest generalizing failed with
  | nil => cases next
  | cons first rest ih =>
    rw [isChain_cons_cons] at tail
    by_cases good : first.ok = true
    · rw [find?_cons_of_pos good] at next
      obtain rfl := Option.some.inj next
      exact tail.1 failure
    · rw [find?_cons_of_neg good] at next
      exact ih (Bool.eq_false_iff.mpr good) next tail.2

end Recording

namespace Recording

/-- One black pixel, which is scaled to the whole desktop. -/
def blackPicture : RGBA where
  rect := .whole 1 1
  stride := 4
  pix := [0, 0, 0, 255]

def blackCall : AvcCall where
  img := some blackPicture
  regions := none
  force := false
  replies := { first := some { data := [0], some := by decide }, software := true, second := none }

end Recording

end Gokvm.Rdp
