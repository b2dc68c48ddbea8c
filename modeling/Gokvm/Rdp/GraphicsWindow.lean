import Gokvm.Rdp.Graphics

/-! # The acknowledgment window

The writer, the network reader and a resize change the graphics state in critical sections; the
writer and a resize also exclude each other as a whole. In every interleaving the window holds at
most two frames, in the order of their numbers, all reserved since its last reset.
-/

namespace Gokvm.Rdp

open Lib List GraphicsState

/-- What the holder of the write lock is in the middle of. -/
inductive Holder
  /-- The writer has found that it can send. -/
  | checked
  /-- The writer has reserved a frame and is writing it; `epoch` counts the resets before. -/
  | writing (id : UInt32) (generation : UInt64) (epoch : Nat)
  | resizing

/-- The shared state. `issued`, `epoch` and `reserved` record the frames reserved, the resets, and
    the resets before each number's reservation. -/
structure Window where
  g : GraphicsState
  holder : Option Holder
  issued : Nat
  epoch : Nat
  reserved : List (UInt32 × Nat)

namespace Window

def initial (supported : Bool) : Window :=
  { g := .initial supported, holder := none, issued := 0, epoch := 0, reserved := [] }

def ids (w : Window) : List UInt32 := w.g.inFlight.map PendingFrame.id

inductive Event
  /-- The writer takes the write lock and may send. -/
  | check
  /-- The writer gives up before it reserves a frame. -/
  | abandon
  | reserve
  /-- The write of the frame returns. -/
  | complete (failed : Bool) (bytes : Nat) (now : Int)
  | beginResize
  | finishResize (failed : Bool)
  /-- The reader handles a PDU of the client, on a closed channel too; a message is several in a
      row. -/
  | pdu (command : Nat) (data : Bytes) (now : Int) (writes : Bool)
  | close
  | pace (base : Int)

def reset (w : Window) (g : GraphicsState) : Window :=
  { w with g := g.resetAcknowledgments, epoch := w.epoch + 1 }

/-- What one critical section does, if it can happen. -/
def step (w : Window) : Event → Option Window
  | .check => if w.holder.isNone && w.g.canSend then some { w with holder := some .checked } else none
  | .abandon =>
    match w.holder with
    | some .checked => some { w with holder := none }
    | _ => none
  | .reserve =>
    match w.holder with
    | some .checked =>
      if w.g.canSend then
        some
          { w with
            g := w.g.reserve
            holder := some (.writing w.g.reserve.frameID w.g.ackGeneration w.epoch)
            issued := w.issued + 1
            reserved := (w.g.reserve.frameID, w.epoch) :: w.reserved }
      else some { w with holder := none }
    | _ => none
  | .complete failed bytes now =>
    match w.holder with
    | some (.writing id generation _) =>
      some { w with g := w.g.complete id generation failed bytes now, holder := none }
    | _ => none
  | .beginResize => if w.holder.isNone && w.g.ready then some { w with holder := some .resizing } else none
  | .finishResize failed =>
    match w.holder with
    | some .resizing =>
      some (if failed then { w with holder := none } else { w.reset w.g with holder := none })
    | _ => none
  | .pdu command data now writes =>
    let g := (readGraphicsPDU command data now writes w.g).2
    -- Only a reset changes the generation.
    some { w with g := g, epoch := if g.ackGeneration = w.g.ackGeneration then w.epoch else w.epoch + 1 }
  | .close => some (w.reset { w.g with ready := false, closed := true })
  | .pace base => some { w with g := w.g.pace base }

def run (w : Window) : List Event → Option Window
  | [] => some w
  | event :: rest => (w.step event).bind fun next => next.run rest

/-! ## What a PDU does to the window -/

/-- A client message suspends acknowledgments, acknowledges a frame, or leaves the window alone. -/
inductive PduEffect (command : Nat) (data : Bytes) (now : Int) (g g' : GraphicsState) : Prop
  | other (generation : g'.ackGeneration = g.ackGeneration) (frames : g'.inFlight = g.inFlight)
      (last : g'.frameID = g.frameID)
  | suspend (shape : g' = { g with ackOff := true }.resetAcknowledgments)
  | acknowledge
      (shape : g' = { g with ackOff := false }.acknowledge (leNat (data.take 4))
        (UInt32.ofNat (leNat (part data 4 4))) now)

theorem acknowledged {data : Bytes} (length : data.length = 12) :
    (Checked.little 4 data : Checked String Nat) = .ok (leNat (data.take 4)) ∧
      (Checked.sliceFrom data 4 : Checked String Bytes) = .ok (part data 4 8) ∧
      (Checked.little 4 (part data 4 8) : Checked String Nat) = .ok (leNat (part data 4 4)) := by
  have eight : (part data 4 8).length = 8 := part_length (by omega)
  refine ⟨?_, ?_, ?_⟩
  · rw [Checked.little, if_pos (by omega)]
  · rw [Checked.sliceFrom, Checked.slice, if_pos (by omega), length]
    rfl
  · rw [Checked.little, if_pos (by omega), part, part, take_take]
    rfl

theorem readGraphicsPDU_effect (command : Nat) (data : Bytes) (now : Int) (writes : Bool) (g : GraphicsState) :
    PduEffect command data now g (readGraphicsPDU command data now writes g).2 := by
  show Prog.Wp (readGraphicsPDU command data now writes) g fun _ g' => PduEffect command data now g g'
  unfold readGraphicsPDU
  split
  · rw [Prog.wp_read_bind]
    split
    · exact .other rfl rfl rfl
    · rw [parsing, Prog.wp_query_bind]
      split
      · split
        · rw [Prog.wp_update_bind, writing]
          cases writes <;> exact .other rfl rfl rfl
        · rw [writing]
          cases writes <;> exact .other rfl rfl rfl
      · exact .other rfl rfl rfl
  · rw [Prog.wp_read_bind]
    split
    · exact .other rfl rfl rfl
    next valid =>
      simp only [Bool.or_eq_true, Bool.not_eq_true', bne_iff_ne, ne_eq, not_or, not_not] at valid
      obtain ⟨depth, rest, number⟩ := acknowledged valid.2
      simp only [parsing, Prog.wp_query_bind, depth]
      split
      · exact .suspend rfl
      · simp only [Prog.wp_update_bind, Prog.wp_query_bind, rest, number]
        exact .acknowledge rfl
  · split
    · exact .other rfl rfl rfl
    · rw [parsing, Prog.wp_query_bind]
      split
      · split
        · exact .other rfl rfl rfl
        · rw [writing]
          cases writes <;> exact .other rfl rfl rfl
      · exact .other rfl rfl rfl
  · split <;> exact .other rfl rfl rfl
  · exact .other rfl rfl rfl

/-! ## What each operation does to the tracked numbers -/

theorem mem_of_findIdx {ids : List UInt32} {id : UInt32} {i : Nat}
    (found : ids.findIdx? (· == id) = some i) : id ∈ ids := by
  obtain ⟨inside, same, _⟩ := findIdx?_eq_some_iff_getElem.mp found
  have equal : ids[i] = id := by simpa using same
  exact equal ▸ getElem_mem inside

/-- In an increasing list, what follows an element is what is larger. -/
theorem drop_after {ids : List UInt32} (ordered : ids.Pairwise (· < ·)) {id : UInt32} {i : Nat}
    (found : ids.findIdx? (· == id) = some i) : ids.drop (i + 1) = ids.filter (id < ·) := by
  induction ids generalizing i with
  | nil => cases found
  | cons first rest ih =>
    rw [pairwise_cons] at ordered
    rw [findIdx?_cons] at found
    by_cases here : first = id
    · subst here
      simp only [beq_self_eq_true, if_true, Option.some.injEq] at found
      subst found
      rw [drop_succ_cons, drop_zero, filter_cons_of_neg (by simp)]
      exact (filter_eq_self.mpr fun other member => decide_eq_true (ordered.1 other member)).symm
    · simp only [beq_iff_eq, here, if_false, Option.map_eq_some_iff] at found
      obtain ⟨j, later, rfl⟩ := found
      have below : ¬ id < first := fun above =>
        UInt32.lt_asymm above (ordered.1 id (mem_of_findIdx later))
      rw [drop_succ_cons, ih ordered.2 later, filter_cons_of_neg (by simpa using below)]

theorem eraseIdx_findIdx (ids : List UInt32) (id : UInt32) :
    ids.eraseIdx (ids.findIdx (· == id)) = ids.erase id := by
  induction ids with
  | nil => rfl
  | cons first rest ih =>
    rw [findIdx_cons, erase_cons]
    by_cases here : first = id
    · simp [here]
    · have apart : (first == id) = false := beq_false_of_ne here
      rw [apart, cond_false, eraseIdx_cons_succ, ih]
      simp

/-- An acknowledgment retires the frame that it names and those before it. -/
theorem ids_acknowledge {g : GraphicsState} (ordered : (g.inFlight.map PendingFrame.id).Pairwise (· < ·))
    (queueDepth : Nat) (id : UInt32) (now : Int) :
    (g.acknowledge queueDepth id now).inFlight.map PendingFrame.id =
      if id ∈ g.inFlight.map PendingFrame.id then (g.inFlight.map PendingFrame.id).filter (id < ·)
      else g.inFlight.map PendingFrame.id := by
  have search : (g.inFlight.map PendingFrame.id).findIdx? (· == id) =
      g.inFlight.findIdx? fun frame => frame.id == id := findIdx?_map
  unfold acknowledge
  split
  next none =>
    rw [none, findIdx?_eq_none_iff] at search
    rw [if_neg]
    intro member
    simpa using search id member
  next i found =>
    rw [found] at search
    have after := drop_after ordered search
    rw [if_pos (mem_of_findIdx search), ← after, ← map_drop]
    rfl

theorem inFlight_observeFrame (g : GraphicsState) (bytes : Nat) :
    (g.observeFrame bytes).inFlight = g.inFlight := by
  unfold observeFrame
  split <;> rfl

/-- The end of a write removes at most its own frame, and only when the write failed. -/
theorem ids_complete (g : GraphicsState) (id : UInt32) (generation : UInt64) (failed : Bool) (bytes : Nat)
    (now : Int) :
    (g.complete id generation failed bytes now).inFlight.map PendingFrame.id =
      if generation = g.ackGeneration ∧ failed = true then (g.inFlight.map PendingFrame.id).erase id
      else g.inFlight.map PendingFrame.id := by
  by_cases same : generation = g.ackGeneration
  · cases failed with
    | true =>
      have erased : (g.complete id generation true bytes now).inFlight =
          g.inFlight.eraseIdx (g.inFlight.findIdx fun frame => frame.id == id) := by
        simp only [complete, same, ne_eq, not_true_eq_false, if_false, if_true]
      rw [if_pos ⟨same, rfl⟩, ← eraseIdx_findIdx, findIdx_map, eraseIdx_map, erased]
      rfl
    | false =>
      have marked : (g.complete id generation false bytes now).inFlight =
          g.inFlight.modify (g.inFlight.findIdx fun frame => frame.id == id)
            fun frame => { frame with sentAt := some now } := by
        simp only [complete, same, ne_eq, not_true_eq_false, if_false, Bool.false_eq_true,
          inFlight_observeFrame]
      rw [if_neg (by simp), marked]
      apply ext_getElem?
      intro i
      simp only [getElem?_map, getElem?_modify]
      cases g.inFlight[i]? with
      | none => rfl
      | some frame =>
        simp only [Option.map_eq_map, Option.map_some]
        split <;> rfl
  · rw [complete, if_pos same, if_neg (fun both => same both.1)]

theorem frameID_complete (g : GraphicsState) (id : UInt32) (generation : UInt64) (failed : Bool)
    (bytes : Nat) (now : Int) : (g.complete id generation failed bytes now).frameID = g.frameID := by
  simp only [complete, observeFrame]
  repeat' split
  all_goals rfl

theorem acknowledge_keeps (g : GraphicsState) (queueDepth : Nat) (id : UInt32) (now : Int) :
    (g.acknowledge queueDepth id now).ackGeneration = g.ackGeneration ∧
      (g.acknowledge queueDepth id now).frameID = g.frameID := by
  unfold acknowledge
  split <;> exact ⟨rfl, rfl⟩

/-! ## The invariant -/

structure Good (w : Window) : Prop where
  short : w.ids.length ≤ graphicsMaxFrames
  ordered : w.ids.Pairwise (· < ·)
  current : ∀ id ∈ w.ids, (id, w.epoch) ∈ w.reserved
  numbered : ∀ entry ∈ w.reserved, entry.1 ≤ w.g.frameID
  unique : ∀ a ∈ w.reserved, ∀ b ∈ w.reserved, a.1 = b.1 → a = b
  counted : w.g.frameID.toNat = w.issued
  writing : ∀ id generation epoch, w.holder = some (.writing id generation epoch) →
    (id, epoch) ∈ w.reserved

theorem good_initial (supported : Bool) : (initial supported).Good where
  short := Nat.zero_le _
  ordered := List.Pairwise.nil
  current := by simp [initial, ids, GraphicsState.initial]
  numbered := by simp [initial]
  unique := by simp [initial]
  counted := rfl
  writing := by simp [initial]

structure Quiet (w w' : Window) : Prop where
  reserved : w'.reserved = w.reserved
  last : w'.g.frameID = w.g.frameID
  issued : w'.issued = w.issued
  writing : ∀ id generation epoch, w'.holder = some (.writing id generation epoch) → w'.holder = w.holder

variable {w w' : Window}

/-- Frames can leave the window, and a reset empties it. -/
theorem Good.quiet (good : w.Good) (quiet : w.Quiet w')
    (fewer : w'.ids = [] ∨ w'.ids.Sublist w.ids ∧ w'.epoch = w.epoch) : w'.Good := by
  obtain ⟨reserved, last, issued, writing⟩ := quiet
  have part : w'.ids.Sublist w.ids := by
    rcases fewer with none | ⟨part, _⟩
    · rw [none]
      exact nil_sublist _
    · exact part
  refine
    { short := part.length_le.trans good.short, ordered := good.ordered.sublist part, current := ?_
      numbered := ?_, unique := ?_, counted := ?_, writing := ?_ }
  · intro id member
    rcases fewer with none | ⟨_, epoch⟩
    · rw [none] at member
      cases member
    · rw [reserved, epoch]
      exact good.current id (part.subset member)
  · rw [reserved, last]
    exact good.numbered
  · rw [reserved]
    exact good.unique
  · rw [last, issued]
    exact good.counted
  · intro id generation epoch holds
    rw [reserved]
    exact good.writing id generation epoch (writing id generation epoch holds ▸ holds)

theorem Good.hold (good : w.Good) {holder : Option Holder}
    (idle : ∀ id generation epoch, holder ≠ some (.writing id generation epoch)) :
    Good { w with holder := holder } :=
  good.quiet
    { reserved := rfl, last := rfl, issued := rfl
      writing := fun id generation epoch holds => absurd holds (idle id generation epoch) }
    (Or.inr ⟨List.Sublist.refl _, rfl⟩)

/-- A new number is larger than every earlier one. -/
theorem Good.reserve (good : w.Good) (can : w.g.canSend = true) (few : w.issued + 1 < 2 ^ 32)
    (holder : Option Holder) (writing : ∀ id generation epoch, holder = some (.writing id generation epoch) →
      (id, epoch) = (w.g.reserve.frameID, w.epoch)) :
    Good
      { w with
        g := w.g.reserve, holder, issued := w.issued + 1
        reserved := (w.g.reserve.frameID, w.epoch) :: w.reserved } := by
  have next : w.g.reserve.frameID.toNat = w.issued + 1 := by
    show (w.g.frameID + 1).toNat = w.issued + 1
    rw [UInt32.toNat_add, good.counted]
    exact Nat.mod_eq_of_lt few
  have above : ∀ entry ∈ w.reserved, entry.1 < w.g.reserve.frameID := by
    intro entry member
    have below := UInt32.le_iff_toNat_le.mp (good.numbered entry member)
    rw [UInt32.lt_iff_toNat_lt, next]
    rw [good.counted] at below
    omega
  have tracked : ∀ id ∈ w.ids, id < w.g.reserve.frameID := fun id member =>
    above _ (good.current id member)
  have window : w.g.reserve.inFlight.map PendingFrame.id =
      if w.g.ackOff then w.ids else w.ids ++ [w.g.reserve.frameID] := by
    simp only [GraphicsState.reserve, ids]
    split
    · rfl
    · rw [map_append]
      rfl
  refine
    { short := ?_, ordered := ?_, current := ?_, numbered := ?_, unique := ?_, counted := next, writing := ?_ }
  · show (w.g.reserve.inFlight.map PendingFrame.id).length ≤ graphicsMaxFrames
    rw [window]
    split
    · exact good.short
    next tracking =>
      have room : w.g.ready = true ∧ w.g.inFlight.length < graphicsMaxFrames := by
        simpa [canSend, tracking] using can
      rw [length_append, ids, length_map]
      exact room.2
  · show (w.g.reserve.inFlight.map PendingFrame.id).Pairwise (· < ·)
    rw [window]
    split
    · exact good.ordered
    · refine pairwise_append.mpr ⟨good.ordered, pairwise_singleton _ _, fun id member other last => ?_⟩
      rw [mem_singleton.mp last]
      exact tracked id member
  · intro id member
    have here : id ∈ w.g.reserve.inFlight.map PendingFrame.id := member
    rw [window] at here
    split at here
    · exact mem_cons_of_mem _ (good.current id here)
    · cases mem_append.mp here with
      | inl before => exact mem_cons_of_mem _ (good.current id before)
      | inr last =>
        rw [mem_singleton.mp last]
        exact mem_cons_self
  · intro entry member
    cases mem_cons.mp member with
    | inl new =>
      rw [new]
      exact UInt32.le_refl _
    | inr old => exact UInt32.le_of_lt (above entry old)
  · intro a inA b inB same
    cases mem_cons.mp inA with
    | inl newA =>
      cases mem_cons.mp inB with
      | inl newB => rw [newA, newB]
      | inr oldB =>
        rw [newA] at same
        exact absurd (above b oldB) (same ▸ UInt32.lt_irrefl _)
    | inr oldA =>
      cases mem_cons.mp inB with
      | inl newB =>
        rw [newB] at same
        exact absurd (above a oldA) (same ▸ UInt32.lt_irrefl _)
      | inr oldB => exact good.unique a oldA b oldB same
  · intro id generation epoch holds
    rw [writing id generation epoch holds]
    exact mem_cons_self

/-- A tracked number leaves the window, and a new one enters it, only as its section says. -/
theorem Good.step (good : w.Good) {event : Event} (steps : w.step event = some w') (few : w'.issued < 2 ^ 32) : w'.Good := by
  cases event with
  | check | abandon | beginResize =>
    simp only [Window.step] at steps
    split at steps
    · cases steps
      exact good.hold (by simp)
    · cases steps
  | reserve =>
    simp only [Window.step] at steps
    split at steps
    · split at steps
      next can =>
        cases steps
        refine good.reserve can few _ fun id generation epoch holds => ?_
        cases holds
        rfl
      · cases steps
        exact good.hold (by simp)
    · cases steps
  | complete failed bytes now =>
    simp only [Window.step] at steps
    split at steps
    next id generation epoch _ =>
      cases steps
      refine good.quiet { reserved := rfl, last := ?_, issued := rfl, writing := by simp }
        (Or.inr ⟨?_, rfl⟩)
      · exact frameID_complete w.g id generation failed bytes now
      · show ((w.g.complete id generation failed bytes now).inFlight.map PendingFrame.id).Sublist w.ids
        rw [ids_complete]
        split
        · exact erase_sublist
        · exact List.Sublist.refl _
    · cases steps
  | finishResize failed =>
    simp only [Window.step] at steps
    split at steps
    · cases failed with
      | true =>
        cases steps
        exact good.hold (by simp)
      | false =>
        cases steps
        exact good.quiet { reserved := rfl, last := rfl, issued := rfl, writing := by simp }
          (Or.inl rfl)
    · cases steps
  | pdu command data now writes =>
    cases steps
    cases readGraphicsPDU_effect command data now writes w.g with
    | other generation frames last =>
      refine good.quiet { reserved := rfl, last, issued := rfl, writing := fun _ _ _ _ => rfl }
        (Or.inr ⟨?_, if_pos generation⟩)
      simp only [ids, frames]
      exact List.Sublist.refl _
    | suspend shape =>
      refine good.quiet { reserved := rfl, last := ?_, issued := rfl, writing := fun _ _ _ _ => rfl }
        (Or.inl ?_)
      · show (readGraphicsPDU command data now writes w.g).2.frameID = _
        rw [shape]
        rfl
      · show (readGraphicsPDU command data now writes w.g).2.inFlight.map _ = []
        rw [shape]
        rfl
    | acknowledge shape =>
      obtain ⟨generation, last⟩ := acknowledge_keeps { w.g with ackOff := false } (leNat (data.take 4))
        (UInt32.ofNat (leNat (part data 4 4))) now
      rw [← shape] at generation last
      refine good.quiet { reserved := rfl, last, issued := rfl, writing := fun _ _ _ _ => rfl }
        (Or.inr ⟨?_, if_pos generation⟩)
      show ((readGraphicsPDU command data now writes w.g).2.inFlight.map PendingFrame.id).Sublist w.ids
      rw [shape, ids_acknowledge (g := { w.g with ackOff := false }) good.ordered]
      split
      · exact filter_sublist
      · exact List.Sublist.refl _
  | close =>
    cases steps
    exact good.quiet { reserved := rfl, last := rfl, issued := rfl, writing := fun _ _ _ _ => rfl }
      (Or.inl rfl)
  | pace base =>
    cases steps
    exact good.quiet { reserved := rfl, last := rfl, issued := rfl, writing := fun _ _ _ _ => rfl }
      (Or.inr ⟨List.Sublist.refl _, rfl⟩)

theorem issued_step {event : Event} (steps : w.step event = some w') : w.issued ≤ w'.issued := by
  cases event <;> simp only [Window.step, reset] at steps <;> (repeat' split at steps) <;> cases steps <;>
    simp

theorem issued_run {events : List Event} (runs : w.run events = some w') :
    w.issued ≤ w'.issued := by
  induction events generalizing w with
  | nil =>
    cases runs
    exact le_rfl
  | cons event rest ih =>
    obtain ⟨next, steps, later⟩ := Option.bind_eq_some_iff.mp runs
    exact (issued_step steps).trans (ih later)

theorem Good.run (good : w.Good) {events : List Event} (runs : w.run events = some w')
    (few : w'.issued < 2 ^ 32) : w'.Good := by
  induction events generalizing w with
  | nil =>
    cases runs
    exact good
  | cons event rest ih =>
    obtain ⟨next, steps, later⟩ := Option.bind_eq_some_iff.mp runs
    exact ih (good.step steps (Nat.lt_of_le_of_lt (issued_run later) few)) later

/-- The end of a write changes no number if its frame was acknowledged or the window reset; else it
    removes its frame if it failed. -/
theorem Good.complete (good : w.Good) {id : UInt32} {generation : UInt64} {epoch : Nat}
    (holds : w.holder = some (.writing id generation epoch)) {failed : Bool} {bytes : Nat} {now : Int}
    (steps : w.step (.complete failed bytes now) = some w') :
    (epoch ≠ w.epoch ∨ id ∉ w.ids → w'.ids = w.ids) ∧
      (w'.ids = w.ids ∨ failed = true ∧ w'.ids = w.ids.erase id) := by
  simp only [Window.step, holds] at steps
  cases steps
  have ids : (w.g.complete id generation failed bytes now).inFlight.map PendingFrame.id =
      if generation = w.g.ackGeneration ∧ failed = true then w.ids.erase id else w.ids :=
    ids_complete w.g id generation failed bytes now
  refine ⟨fun late => ?_, ?_⟩
  · -- A frame of an earlier window is not tracked any more, whatever the generations say.
    have absent : id ∉ w.ids := by
      rcases late with earlier | absent
      · intro member
        have same := good.unique _ (good.current id member) _ (good.writing id generation epoch holds) rfl
        exact earlier (Prod.mk.inj same).2.symm
      · exact absent
    refine ids.trans ?_
    rw [erase_of_not_mem absent, ite_self]
  · by_cases removes : generation = w.g.ackGeneration ∧ failed = true
    · rw [if_pos removes] at ids
      exact Or.inr ⟨removes.2, ids⟩
    · rw [if_neg removes] at ids
      exact Or.inl ids

theorem Good.acknowledge (good : w.Good) (ready : w.g.ready = true) {data : Bytes} (length : data.length = 12)
    (depth : leNat (data.take 4) ≠ 0xffffffff) {now : Int} {writes : Bool}
    (steps : w.step (.pdu 0x0d data now writes) = some w') :
    w'.ids =
      if UInt32.ofNat (leNat (part data 4 4)) ∈ w.ids then
        w.ids.filter (UInt32.ofNat (leNat (part data 4 4)) < ·)
      else w.ids := by
  cases steps
  obtain ⟨first, rest, number⟩ := acknowledged length
  have shape : (readGraphicsPDU 0x0d data now writes w.g).2 =
      { w.g with ackOff := false }.acknowledge (leNat (data.take 4))
        (UInt32.ofNat (leNat (part data 4 4))) now := by
    show Prog.Wp (readGraphicsPDU 0x0d data now writes) w.g fun _ g' => g' = _
    simp only [readGraphicsPDU, Prog.wp_read_bind, ready, length, Bool.not_true, bne_self_eq_false,
      Bool.or_self, Bool.false_eq_true, if_false, parsing, Prog.wp_query_bind, first, depth,
      Prog.wp_update_bind, rest, number, Prog.wp_update]
  show (readGraphicsPDU 0x0d data now writes w.g).2.inFlight.map PendingFrame.id = _
  rw [shape, ids_acknowledge (g := { w.g with ackOff := false }) good.ordered]
  rfl

end Window

/-- In every interleaving with fewer than 2^32 frames: at most two frames are tracked, with
    increasing numbers, none above the last one issued and each reserved since the last reset; an
    acknowledgment retires the frame it names, if tracked, and those before it; the end of a write
    adds no number, removes no other one, and changes nothing after a reset or an acknowledgment of
    its frame. -/
theorem graphics_acknowledgment_window (supported : Bool) (events : List Window.Event) {w : Window}
    (runs : (Window.initial supported).run events = some w) (few : w.issued < 2 ^ 32) :
    w.ids.length ≤ 2 ∧ w.ids.Pairwise (· < ·) ∧
      (∀ id ∈ w.ids, id ≤ w.g.frameID ∧ (id, w.epoch) ∈ w.reserved) ∧
      (∀ data now writes w', w.g.ready = true → data.length = 12 → leNat (data.take 4) ≠ 0xffffffff →
        w.step (.pdu 0x0d data now writes) = some w' →
        w'.ids =
          if UInt32.ofNat (leNat (part data 4 4)) ∈ w.ids then
            w.ids.filter (UInt32.ofNat (leNat (part data 4 4)) < ·)
          else w.ids) ∧
      ∀ id generation epoch failed bytes now w', w.holder = some (.writing id generation epoch) →
        w.step (.complete failed bytes now) = some w' →
        (epoch ≠ w.epoch ∨ id ∉ w.ids → w'.ids = w.ids) ∧
          (w'.ids = w.ids ∨ failed = true ∧ w'.ids = w.ids.erase id) := by
  have good := (Window.good_initial supported).run runs few
  refine ⟨good.short, good.ordered, fun id member => ?_, ?_, ?_⟩
  · exact ⟨good.numbered _ (good.current id member), good.current id member⟩
  · intro data now writes w' ready length depth steps
    exact good.acknowledge ready length depth steps
  · intro id generation epoch failed bytes now w' holds steps
    exact good.complete holds steps

namespace Window

/-- A client that offers version 8.1 of the graphics channel with AVC420. -/
def capsAdvertise : Bytes := [1, 0, 5, 1, 8, 0, 4, 0, 0, 0, 0x10, 0, 0, 0]

end Window

theorem graphics_window_of_one_frame :
    ∃ w, (Window.initial true).run [.pdu 0x12 Window.capsAdvertise 0 true, .check, .reserve] = some w ∧
      w.ids = [1] ∧ w.ids.length ≤ 2 :=
  ⟨_, rfl, by decide +kernel,
    (graphics_acknowledgment_window true [.pdu 0x12 Window.capsAdvertise 0 true, .check, .reserve] rfl
      (by decide +kernel)).1⟩

end Gokvm.Rdp
