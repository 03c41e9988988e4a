import DeviceTrust.Proofs.Jws.Outcome

/-!
# Phases that share a memory

The shared region of a scratch memory is used anew in each phase. This is safe whatever the phases
take and write: the regions of one phase lie one behind the other, none reaches beyond the memory or
into the two regions that keep their contents, and a region that is taken holds what was last
written to its place, in whichever phase that was.

A use of the memory is a list of actions, and the writes are noted beside the memory, so that what is
read can be compared with them.

Results:
* `Arena.Disciplined.act`: what each action keeps.
* `Arena.disciplined_run`: what holds after any actions.
* `arena_discipline`: the layout, the carving and the contents in every reachable arena.
-/

namespace DeviceTrust

/-- The region behind the first `n` bytes. -/
def Region.drop (region : Region) (n : Nat) : Region :=
  ⟨region.offset + n, region.length - n⟩

namespace Jws

/-! ## Actions -/

/-- A step in the use of a scratch memory. -/
inductive Action where
  /-- Starts a phase; nothing that was taken before can be used any more. -/
  | phase
  /-- Takes the next `length` bytes of the phase. -/
  | carve (length : Nat)
  /-- Writes into a region that has been taken in this phase, from its byte `start` on. -/
  | write (index start : Nat) (content : Bytes)

/-- A write into a region from its byte `start` on, cut off at the end of the region. -/
structure Write where
  region : Region
  start : Nat
  content : Bytes

/-- What the write leaves at an address, if it reaches it. -/
def Write.byte? (w : Write) (address : Nat) : Option UInt8 :=
  if w.region.offset + w.start ≤ address ∧ address < w.region.offset + w.region.length then
    w.content[address - (w.region.offset + w.start)]?
  else none

/-- The byte that was last written at an address, or the one that was there at first; the writes are
given newest first. -/
def lastWritten (writes : List Write) (buffer : Bytes) (address : Nat) : Option UInt8 :=
  (writes.findSome? (·.byte? address)).or buffer[address]?

/-- A scratch memory in use. -/
structure Arena where
  memory : Bytes
  phase : Phase
  /-- The regions taken in this phase, in their order. -/
  taken : List Region
  /-- The writes of all phases, newest first. -/
  writes : List Write

namespace Arena

/-- A memory before its first phase. -/
def start (layout : Layout) (buffer : Bytes) : Arena :=
  ⟨buffer, layout.phase, [], []⟩

/-- The arena after an action. What cannot be done is left out. -/
def act (layout : Layout) (arena : Arena) : Action → Arena
  | .phase => { arena with phase := layout.phase, taken := [] }
  | .carve length =>
    match arena.phase.carve length with
    | .ok (region, phase) => { arena with phase := phase, taken := arena.taken ++ [region] }
    | .error _ => arena
  | .write index start content =>
    match arena.taken[index]? with
    | some region =>
      { arena with
        memory := (region.drop start).write content arena.memory
        writes := ⟨region, start, content⟩ :: arena.writes }
    | none => arena

/-- The arena after some actions. -/
def run (layout : Layout) (arena : Arena) (actions : List Action) : Arena :=
  actions.foldl (act layout) arena

/-- The number of bytes taken in this phase. -/
def used (arena : Arena) : Nat :=
  (arena.taken.map Region.length).sum

/-! ## What every action keeps -/

/-- The arena follows from the use of a memory that held `buffer` at first. -/
structure Disciplined (buffer : Bytes) (arena : Arena) : Prop where
  length_eq : arena.memory.length = buffer.length
  /-- What is left of the phase begins behind what has been taken. -/
  phase_eq : arena.phase = sharedPhase buffer.length arena.used
  used_le : jwsHeaderSize + jwkPayloadSize + arena.used ≤ buffer.length
  within : ∀ region ∈ arena.taken, jwsHeaderSize + jwkPayloadSize ≤ region.offset ∧
    region.offset + region.length ≤ jwsHeaderSize + jwkPayloadSize + arena.used
  apart : arena.taken.Pairwise Region.Apart
  memory_eq : ∀ address, arena.memory[address]? = lastWritten arena.writes buffer address
  persistent : ∀ address < jwsHeaderSize + jwkPayloadSize,
    arena.memory[address]? = buffer[address]?

variable {buffer : Bytes} {arena : Arena}

theorem disciplined_start (h : scratchSize ≤ buffer.length) :
    (start (plainLayout buffer.length) buffer).Disciplined buffer := by
  have hsize : jwsHeaderSize + jwkPayloadSize ≤ scratchSize := by decide
  refine ⟨rfl, plainLayout_phase buffer.length, ?_, fun _ h => (nomatch h), .nil, fun _ => rfl,
    fun _ _ => rfl⟩
  show jwsHeaderSize + jwkPayloadSize + 0 ≤ buffer.length
  omega

/-- Carving succeeds iff what has been taken in this phase leaves room for it. -/
theorem Disciplined.carve (h : arena.Disciplined buffer) (length : Nat) :
    arena.phase.carve length =
      if jwsHeaderSize + jwkPayloadSize + arena.used + length ≤ buffer.length then
        .ok (sharedRegion arena.used length, sharedPhase buffer.length (arena.used + length))
      else .error .outOfMemory := by
  have hused := h.used_le
  rw [h.phase_eq, Phase.carve, sharedPhase]
  by_cases hroom : jwsHeaderSize + jwkPayloadSize + arena.used + length ≤ buffer.length
  · rw [if_pos hroom, if_neg (by show ¬(_ - _ - _ < length); omega)]
    simp only [sharedRegion, sharedPhase, Nat.add_assoc, Nat.sub_sub]
  · rw [if_neg hroom, if_pos (by show _ - _ - _ < length; omega)]

theorem Disciplined.act_phase (h : arena.Disciplined buffer) :
    (arena.act (plainLayout buffer.length) .phase).Disciplined buffer := by
  have hused := h.used_le
  refine { h with
    phase_eq := plainLayout_phase buffer.length
    used_le := ?_
    within := fun _ h => nomatch h
    apart := .nil }
  show jwsHeaderSize + jwkPayloadSize + 0 ≤ buffer.length
  omega

/-- A region that is taken lies behind all others of its phase. -/
theorem Disciplined.act_carve (h : arena.Disciplined buffer) (length : Nat) :
    (arena.act (plainLayout buffer.length) (.carve length)).Disciplined buffer := by
  rw [act, h.carve]
  by_cases hroom : jwsHeaderSize + jwkPayloadSize + arena.used + length ≤ buffer.length
  · rw [if_pos hroom]
    dsimp only
    have hused : ({ arena with
        phase := sharedPhase buffer.length (arena.used + length)
        taken := arena.taken ++ [sharedRegion arena.used length] } : Arena).used =
          arena.used + length := by
      rw [used, List.map_append, List.sum_append]
      rfl
    refine { h with
      phase_eq := by rw [hused]
      used_le := by rw [hused]; omega
      within := ?_
      apart := ?_ }
    · intro region hregion
      rw [hused]
      rcases List.mem_append.mp hregion with hregion | hregion
      · have := h.within region hregion
        omega
      · obtain rfl := List.mem_singleton.mp hregion
        simp only [sharedRegion]
        omega
    · rw [List.pairwise_append]
      refine ⟨h.apart, List.pairwise_singleton _ _, fun region hregion other hother => ?_⟩
      obtain rfl := List.mem_singleton.mp hother
      exact .inl (h.within region hregion).2
  · rw [if_neg hroom]
    exact h

theorem lastWritten_cons (w : Write) (writes : List Write) (address : Nat) :
    lastWritten (w :: writes) buffer address =
      (w.byte? address).or (lastWritten writes buffer address) := by
  rw [lastWritten, lastWritten, List.findSome?_cons]
  cases w.byte? address <;> rfl

theorem getElem?_write_drop (region : Region) (start : Nat) (content memory : Bytes)
    (address : Nat) (hregion : region.Fits memory) :
    ((region.drop start).write content memory)[address]? =
      ((⟨region, start, content⟩ : Write).byte? address).or memory[address]? := by
  unfold Region.Fits at hregion
  rw [Region.getElem?_write, Write.byte?, Region.drop]
  by_cases hinside : region.offset + start ≤ address ∧ address < region.offset + region.length
  · rw [if_pos hinside]
    by_cases hreached : address - (region.offset + start) < content.length
    · rw [if_pos (by dsimp only; omega), List.getElem?_eq_getElem hreached]
      rfl
    · have hbeyond : content[address - (region.offset + start)]? = none :=
        List.getElem?_eq_none (by omega)
      rw [if_neg (by dsimp only; omega), hbeyond, Option.none_or]
  · rw [if_neg hinside, if_neg (by dsimp only; omega)]
    rfl

theorem Disciplined.act_write (h : arena.Disciplined buffer) (index start : Nat)
    (content : Bytes) :
    (arena.act (plainLayout buffer.length) (.write index start content)).Disciplined buffer := by
  rw [act]
  cases htaken : arena.taken[index]? with
  | none => exact h
  | some region =>
    have hwithin := h.within region (List.mem_of_getElem? htaken)
    have hused := h.used_le
    have hlength := h.length_eq
    have hfits : region.Fits arena.memory := by
      unfold Region.Fits
      omega
    refine { h with
      length_eq := (Region.length_write _ _ _).trans h.length_eq
      memory_eq := fun address => ?_
      persistent := fun address haddress => ?_ }
    · rw [getElem?_write_drop region start content arena.memory address hfits, lastWritten_cons,
        h.memory_eq]
    · have hbyte : (⟨region, start, content⟩ : Write).byte? address = none :=
        if_neg (by dsimp only; omega)
      rw [getElem?_write_drop region start content arena.memory address hfits, hbyte,
        Option.none_or, h.persistent address haddress]

theorem Disciplined.act (h : arena.Disciplined buffer) (action : Action) :
    (arena.act (plainLayout buffer.length) action).Disciplined buffer := by
  cases action with
  | phase => exact h.act_phase
  | carve length => exact h.act_carve length
  | write index start content => exact h.act_write index start content

theorem Disciplined.run (h : arena.Disciplined buffer) (actions : List Action) :
    (arena.run (plainLayout buffer.length) actions).Disciplined buffer := by
  induction actions generalizing arena with
  | nil => exact h
  | cons action actions ih => exact ih (h.act action)

theorem disciplined_run (h : scratchSize ≤ buffer.length) (actions : List Action) :
    ((start (plainLayout buffer.length) buffer).run (plainLayout buffer.length)
      actions).Disciplined buffer :=
  (disciplined_start h).run actions

/-- A region inside the memory holds what was last written to its addresses. -/
theorem Disciplined.read (h : arena.Disciplined buffer) {region : Region}
    (hfits : region.offset + region.length ≤ buffer.length) :
    (region.read arena.memory).length = region.length ∧ ∀ i < region.length,
      (region.read arena.memory)[i]? = lastWritten arena.writes buffer (region.offset + i) := by
  refine ⟨Region.length_read ?_, fun i hi => ?_⟩
  · unfold Region.Fits
    rw [h.length_eq]
    exact hfits
  · rw [Region.getElem?_read, if_pos hi, h.memory_eq]

/-- The regions that keep their contents. -/
theorem Disciplined.read_persistent (h : arena.Disciplined buffer) {region : Region}
    (hregion : region.offset + region.length ≤ jwsHeaderSize + jwkPayloadSize) :
    region.read arena.memory = region.read buffer := by
  refine List.ext_getElem? fun i => ?_
  rw [Region.getElem?_read, Region.getElem?_read]
  split
  next hi => exact h.persistent _ (by omega)
  next => rfl

end Arena

/-- The discipline of a scratch memory, over any use of it. Less than the required size is refused
and left as it was. Otherwise there are two regions of 1400 and 700 bytes at the start, and what the
phases share behind them. After any actions, carving succeeds iff the shared part has room for what
this phase has taken before and the new length together. It gives the bytes directly behind those,
and they hold what was last written there. Where it fails it changes nothing. The regions of a phase
have no byte in common, and nothing that the phases do changes the two regions at the start. -/
theorem arena_discipline (buffer : Bytes) :
    (buffer.length < 3358 → Scratch.layout.run.run buffer = (.error .outOfMemory, buffer)) ∧
    (3358 ≤ buffer.length →
      let layout : Layout := ⟨⟨0, 1400⟩, ⟨1400, 700⟩, ⟨2100, buffer.length - 2100⟩⟩
      Scratch.layout.run.run buffer = (.ok layout, buffer) ∧
      ∀ actions : List Action,
        let arena := (Arena.start layout buffer).run layout actions
        let earlier := (arena.taken.map Region.length).sum
        (∀ length, earlier + length ≤ layout.shared.length →
          let region : Region := ⟨2100 + earlier, length⟩
          (∃ phase, arena.phase.carve length = .ok (region, phase) ∧
            arena.act layout (.carve length) =
              { arena with phase := phase, taken := arena.taken ++ [region] }) ∧
          (region.read arena.memory).length = length ∧
          ∀ i < length, (region.read arena.memory)[i]? =
            lastWritten arena.writes buffer (2100 + earlier + i)) ∧
        (∀ length, ¬earlier + length ≤ layout.shared.length →
          arena.phase.carve length = .error .outOfMemory ∧
            arena.act layout (.carve length) = arena) ∧
        arena.taken.Pairwise Region.Apart ∧
        arena.memory.length = buffer.length ∧
        layout.header.read arena.memory = layout.header.read buffer ∧
        layout.keyPayload.read arena.memory = layout.keyPayload.read buffer) := by
  have hscratch : scratchSize = 3358 := rfl
  have hpersistent : jwsHeaderSize + jwkPayloadSize = 2100 := rfl
  refine ⟨fun h => run_layout_of_lt (hscratch ▸ h), ?_⟩
  intro hsize layout
  refine ⟨run_layout (hscratch ▸ hsize), ?_⟩
  intro actions arena earlier
  have h : arena.Disciplined buffer := Arena.disciplined_run (hscratch ▸ hsize) actions
  have hcarve (length : Nat) : arena.phase.carve length =
      if 2100 + earlier + length ≤ buffer.length then
        .ok (sharedRegion earlier length, sharedPhase buffer.length (earlier + length))
      else .error .outOfMemory := h.carve length
  have hshared : layout.shared.length = buffer.length - 2100 := rfl
  have hheader : layout.header.offset + layout.header.length = 1400 := rfl
  have hkeyPayload : layout.keyPayload.offset + layout.keyPayload.length = 2100 := rfl
  refine ⟨?_, ?_, h.apart, h.length_eq, h.read_persistent (by omega),
    h.read_persistent (by omega)⟩
  · intro length hroom region
    have hfits : region.offset + region.length ≤ buffer.length := by
      show 2100 + earlier + length ≤ buffer.length
      omega
    have hok : arena.phase.carve length =
        .ok (region, sharedPhase buffer.length (earlier + length)) := by
      rw [hcarve, if_pos hfits]
      rfl
    exact ⟨⟨_, hok, by simp only [Arena.act, hok]⟩, h.read hfits⟩
  · intro length hroom
    have herror : arena.phase.carve length = .error .outOfMemory := by
      rw [hcarve, if_neg (by omega)]
    exact ⟨herror, by simp only [Arena.act, herror]⟩

end Jws

end DeviceTrust
