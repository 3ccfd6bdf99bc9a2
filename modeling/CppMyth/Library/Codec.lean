import Mathlib.Tactic

/-! A stream codec in steps: each step is offered some input and some room for output. Nothing
here mentions a program or a format: the bytes and the state of the codec are parameters. -/
namespace CppMyth.Library

variable {C α : Type*}

structure CodecStep (C α : Type*) where
  state : C
  consumed : Nat
  produced : List α
  status : Int

/-- `step c input finish room`, where `finish` says that no input is to come. A negative status
is a failure. -/
structure Codec (C α : Type*) where
  step : C → List α → Bool → Nat → CodecStep C α
  consumed_le : ∀ c input finish room, (step c input finish room).consumed ≤ input.length
  produced_le : ∀ c input finish room, (step c input finish room).produced.length ≤ room

/-- What a codec has taken and given since `init`. `Running c input finish` says that `c` may be
offered `input`: after a step what is left of its input, and then what comes next. -/
structure Tracked (C α : Type*) extends Codec C α where
  init : C
  Running : C → List α → Bool → Prop
  fed : C → List α
  emitted : C → List α
  running_init : ∀ input finish, Running init input finish
  running_step : ∀ c input finish room, Running c input finish →
    (step c input finish room).status = 0 →
    Running (step c input finish room).state (input.drop (step c input finish room).consumed) finish
  running_more : ∀ c input finish, Running c [] false → Running c input finish
  fed_init : fed init = []
  emitted_init : emitted init = []
  fed_step : ∀ c input finish room, fed (step c input finish room).state =
    fed c ++ input.take (step c input finish room).consumed
  emitted_step : ∀ c input finish room, emitted (step c input finish room).state =
    emitted c ++ (step c input finish room).produced
  /-- A step stops at the end of the input or of the room. -/
  greedy : ∀ c input finish room, Running c input finish →
    (step c input finish room).status = 0 →
    (step c input finish room).consumed = input.length ∨
      (step c input finish room).produced.length = room

/-- The contract of a codec that encodes, where status 1 reports the end of the stream and
`Whole stream text` says that a stream is complete and what it holds. -/
structure Encoder (C α : Type*) (starved : Int) extends Tracked C α where
  Whole : List α → List α → Prop
  bound : Nat → Nat
  bound_mono : Monotone bound
  bounded : ∀ c input finish, Running c input finish →
    (emitted c).length ≤ bound (fed c).length
  bounded_whole : ∀ stream text, Whole stream text → stream.length ≤ bound text.length
  idle : ∀ room, (step init [] false room).status = starved
  works : ∀ c input finish room, Running c input finish → (input ≠ [] ∨ finish = true) →
    0 < room → (step c input finish room).status = 0 ∨ (step c input finish room).status = 1
  flushes : ∀ c input room, Running c input true → (step c input true room).status = 0 →
    (step c input true room).produced.length = room
  ends : ∀ c input finish room, Running c input finish →
    (step c input finish room).status = 1 →
    finish = true ∧ (step c input finish room).consumed = input.length ∧
      Whole (emitted (step c input finish room).state) (fed (step c input finish room).state)

/-- The contract of the codec that decodes them, while it is fed a whole stream. -/
structure Decoder (C α : Type*) (Whole : List α → List α → Prop) extends Tracked C α where
  works : ∀ stream text c input room, Whole stream text → Running c input false →
    fed c ++ input <+: stream → (input ≠ [] ∨ fed c = stream) → 0 < room →
      (step c input false room).status = 0 ∨ (step c input false room).status = 1
  front : ∀ stream text c input room, Whole stream text → Running c input false →
    emitted c <+: text → fed c ++ input <+: stream →
      emitted (step c input false room).state <+: text
  flushes : ∀ stream text c input room, Whole stream text → Running c input false →
    (step c input false room).status = 0 → fed (step c input false room).state = stream →
      (step c input false room).produced.length = room
  ends : ∀ stream text c input room, Whole stream text → Running c input false →
    emitted c <+: text → fed c ++ input <+: stream → (step c input false room).status = 1 →
      emitted (step c input false room).state = text

/-- One that tells the whole stream from a front of it: it goes on while it can, and has no
success to report where nothing can be taken or given. -/
structure FrontDecoder (C α : Type*) (Whole : List α → List α → Prop) extends
    Decoder C α Whole where
  outcomes : ∀ stream text c input room, Whole stream text → Running c input false →
    fed c ++ input <+: stream → (step c input false room).status ≤ 1
  progress : ∀ c input room, Running c input false → 0 < room →
    (step c input false room).status = 0 →
      0 < (step c input false room).consumed ∨ 0 < (step c input false room).produced.length
  complete : ∀ stream text c input room, Whole stream text → Running c input false →
    fed c ++ input <+: stream → (step c input false room).status = 1 →
      fed (step c input false room).state = stream

end CppMyth.Library
