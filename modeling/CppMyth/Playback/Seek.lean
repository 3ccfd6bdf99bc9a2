import CppMyth.LiveTV.Refused
import CppMyth.Playback.Recording

/-! The seeks of both playbacks against the position and the bytes that a reader sees, over all
runs of their streams. -/
namespace CppMyth
open Library

variable {D : Type}

/-- A seek from the current position tells the position and lands where the seek from the start
does: in a recording that is backed, and in a chain whose stream is placed and that lets it. -/
theorem current_seek_iff (stringToTime : List UInt8 → Option Int64) :
    (∀ (memory : Nat → ProtoTransfer)
        (ops : List (StreamOp (ChainCall D) (List (ReadEvent D)) SeekAnswers)),
      let k := LiveTVPlayback.backing stringToTime
      let s := LiveTVPlayback.reached stringToTime memory ops
      (∀ answers, (k.seek s 0 .CUR answers).2 = s ∧
        ((k.seek s 0 .CUR answers).1 = k.getPosition s ↔ LiveTVPlayback.Placed s)) ∧
      ∀ answers : SeekAnswers, answers.Accepting → ∀ d, 0 ≤ k.getPosition s + d →
        k.getPosition s + d ≤ s.playback.getSize →
          (k.Lands s d answers ↔ (d = 0 → LiveTVPlayback.Placed s) ∧
            s.playback.Reaches (k.getPosition s + d))) ∧
    (∀ ops : List (StreamOp (RecordingCall D) (ProtoTransfer → BlockAnswer) (Int → Option Int)),
      let k := RecordingPlayback.backing stringToTime
      let s := RecordingPlayback.reached stringToTime ops
      (∀ reply, (k.seek s 0 .CUR reply).2 = s ∧
        ((k.seek s 0 .CUR reply).1 = k.getPosition s ↔ RecordingPlayback.Backed s)) ∧
      ∀ reply : Int → Option Int, (∀ q, reply q = some q) → ∀ d, 0 ≤ k.getPosition s + d →
        k.getPosition s + d ≤ s.playback.getSize →
          (k.Lands s d reply ↔ (d = 0 → RecordingPlayback.Backed s))) := by
  constructor
  · intro memory ops
    obtain ⟨a, h⟩ := (LiveTVPlayback.backing stringToTime).reached_buffered
      LiveTVPlayback.chunks_valid (LiveTVPlayback.initial memory) ops
    have sound := LiveTVPlayback.reached_sound stringToTime memory ops
    refine ⟨LiveTVPlayback.seek_here stringToTime _, ?_⟩
    intro answers accepting d nonneg within
    exact LiveTVPlayback.lands_iff h sound accepting nonneg within
  · intro ops
    obtain ⟨a, h⟩ := (RecordingPlayback.backing stringToTime).reached_buffered
      RecordingPlayback.chunks_valid ({} : RecordingPlayback D) ops
    have opened := RecordingPlayback.reached_opened stringToTime ops
    refine ⟨RecordingPlayback.seek_here stringToTime _, ?_⟩
    intro reply accepting d nonneg within
    exact RecordingPlayback.lands_iff h opened accepting nonneg within

/-- Six of ten fetched bytes are read, of the chain and of a recording. -/
def sixOfTen : ReadLength := ⟨6, by decide, by decide⟩

def tenArrive : ProtoTransfer → BlockAnswer := fun _ => ⟨List.replicate 10 7, true, 10⟩

def chainRead : List (StreamOp (ChainCall Unit) (List (ReadEvent Unit)) SeekAnswers) :=
  LiveTVPlayback.grown ++ [.read sixOfTen (List.replicate 2 (.turn
    ⟨0, ⟨none, .unreachable, none⟩, .unreachable, none, false, tenArrive⟩))]

def recordingRead : List (StreamOp (RecordingCall Unit) (ProtoTransfer → BlockAnswer)
    (Int → Option Int)) :=
  [.call (.openTransfer true (some (LiveTVPlayback.numbered 1)) (.accepted 7 100)),
   .read sixOfTen tenArrive]

theorem chainRead_lands :
    let k := LiveTVPlayback.backing fun _ => none
    let s := LiveTVPlayback.reached (fun _ => none) (fun _ => LiveTVPlayback.noTransfer) chainRead
    k.Lands s 10 (LiveTVPlayback.moving 7 100) ↔
      ((10 : Int) = 0 → LiveTVPlayback.Placed s) ∧ s.playback.Reaches (k.getPosition s + 10) :=
  ((current_seek_iff fun _ => none).1 (fun _ => LiveTVPlayback.noTransfer) chainRead).2
    (LiveTVPlayback.moving 7 100) (LiveTVPlayback.moving_accepting 7 100) 10 (by decide) (by decide)

/-- The four bytes ahead come off the position of the chain twice. -/
theorem chainRead_counted_twice :
    let k := LiveTVPlayback.backing fun _ => none
    let s := LiveTVPlayback.reached (fun _ => none) (fun _ => LiveTVPlayback.noTransfer) chainRead
    k.getPosition s = 6 ∧ (k.seek s 0 .CUR (LiveTVPlayback.moving 7 100)).1 = 2 := by
  decide

/-- A refused seek leaves the stream of a playback as it was if and only if it is harmless;
when bytes were ahead, a read misses them. -/
theorem refused_seek_iff (stringToTime : List UInt8 → Option Int64) :
    (∀ (memory : Nat → ProtoTransfer)
        (ops : List (StreamOp (ChainCall D) (List (ReadEvent D)) SeekAnswers))
        (offset : Int) (whence : Whence) (answers : SeekAnswers),
      let k := LiveTVPlayback.backing stringToTime
      let s := LiveTVPlayback.reached stringToTime memory ops
      let after := (k.seek s offset whence answers).2
      (k.seek s offset whence answers).1 = -1 →
        (k.AsItWas LiveTVPlayback.chunks s after ↔
          LiveTVPlayback.Harmless s offset whence answers) ∧
        (s.buffer.unread.toNat ≠ 0 → ¬ (whence = .CUR ∧ offset = 0) →
          ∃ n env, (k.read after n env).1 ≠ (k.read s n env).1)) ∧
    (∀ (ops : List (StreamOp (RecordingCall D) (ProtoTransfer → BlockAnswer)
          (Int → Option Int))) (offset : Int) (whence : Whence) (reply : Int → Option Int),
      let k := RecordingPlayback.backing stringToTime
      let s := RecordingPlayback.reached stringToTime ops
      let after := (k.seek s offset whence reply).2
      (k.seek s offset whence reply).1 = -1 →
        (k.AsItWas RecordingPlayback.chunks s after ↔
          RecordingPlayback.Harmless s offset whence reply) ∧
        (s.buffer.unread.toNat ≠ 0 → ¬ (whence = .CUR ∧ offset = 0) →
          ∃ n env, (k.read after n env).1 ≠ (k.read s n env).1)) := by
  constructor
  · intro memory ops offset whence answers
    obtain ⟨a, h⟩ := (LiveTVPlayback.backing stringToTime).reached_buffered
      LiveTVPlayback.chunks_valid (LiveTVPlayback.initial memory) ops
    have sound := LiveTVPlayback.reached_sound stringToTime memory ops
    intro k s after refused
    refine ⟨LiveTVPlayback.refused_iff h sound refused, fun ahead away => ?_⟩
    exact ⟨.one, [], k.away_read LiveTVPlayback.chunks_valid h ahead away answers
      LiveTVPlayback.readChain_silent .one⟩
  · intro ops offset whence reply
    obtain ⟨a, h⟩ := (RecordingPlayback.backing stringToTime).reached_buffered
      RecordingPlayback.chunks_valid ({} : RecordingPlayback D) ops
    intro k s after refused
    refine ⟨RecordingPlayback.refused_iff h refused, fun ahead away => ?_⟩
    exact ⟨.one, _, k.away_read RecordingPlayback.chunks_valid h ahead away reply
      RecordingPlayback.readTransfer_silent .one⟩

theorem recordingRead_harmless :
    let k := RecordingPlayback.backing fun _ => none
    let s := RecordingPlayback.reached (fun _ => none) recordingRead
    (k.AsItWas RecordingPlayback.chunks s (k.seek s 1000 .SET some).2 ↔
      RecordingPlayback.Harmless s 1000 .SET some) ∧
    (s.buffer.unread.toNat ≠ 0 → ¬ (Whence.SET = .CUR ∧ (1000 : Int) = 0) →
      ∃ n env, (k.read (k.seek s 1000 .SET some).2 n env).1 ≠ (k.read s n env).1) :=
  (refused_seek_iff fun _ => none).2 recordingRead 1000 .SET some (by decide)

/-- A seek out of the range drops the four bytes ahead. -/
theorem read_then_dropped :
    (let k := LiveTVPlayback.backing fun _ => none
    let s := LiveTVPlayback.reached (fun _ => none) (fun _ => LiveTVPlayback.noTransfer) chainRead
    let after := k.seek s 1000 .SET (LiveTVPlayback.moving 7 100)
    after.1 = -1 ∧ k.getPosition s = 6 ∧ k.getPosition after.2 = 10) ∧
    let k := RecordingPlayback.backing fun _ => none
    let s := RecordingPlayback.reached (fun _ => none) recordingRead
    let after := k.seek s 1000 .SET some
    after.1 = -1 ∧ k.getPosition s = 6 ∧ k.getPosition after.2 = 10 := by
  decide

end CppMyth
