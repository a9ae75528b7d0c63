import NuraftMesg.Wire.Codec
import Mathlib.Tactic.ByContra

/-!
# Round trips over the wire

A request arrives as it was sent, whatever the position of its buffers: the
request encoder rewinds each buffer before it copies it. The response encoder
does not rewind, so an answer arrives with its context intact exactly when the
context stands at position zero.
-/

namespace NuraftMesg

open Proto

/-- Agreement of two log entries in everything but the position of the buffer. -/
structure LogEntry.SameContent (a b : NuraftMesg.LogEntry) : Prop where
  term : a.term = b.term
  valType : a.valType = b.valType
  timestamp : a.timestamp = b.timestamp
  bytes : a.buf.bytes = b.buf.bytes

/-- Agreement of two requests in everything but the positions of the buffers. -/
structure ReqMsg.SameContent (a b : ReqMsg) : Prop where
  base : a.toMsgBase = b.toMsgBase
  lastLogTerm : a.lastLogTerm = b.lastLogTerm
  lastLogIdx : a.lastLogIdx = b.lastLogIdx
  commitIdx : a.commitIdx = b.commitIdx
  logEntries : List.Forall₂ LogEntry.SameContent a.logEntries b.logEntries

/-- The content of an answer's context; absent and empty are not told apart. -/
def RespMsg.context (m : RespMsg) : List UInt8 := (m.ctx.map Buffer.bytes).getD []

/-- Agreement of two answers, the context up to its position. -/
structure RespMsg.SameContent (a b : RespMsg) : Prop where
  base : a.toMsgBase = b.toMsgBase
  nextIdx : a.nextIdx = b.nextIdx
  accepted : a.accepted = b.accepted
  hint : a.nextBatchSizeHintInBytes = b.nextBatchSizeHintInBytes
  resultCode : a.resultCode = b.resultCode
  context : a.context = b.context

/-! ## Requests -/

/-- One entry survives encoding and decoding, wherever its buffer stood. -/
theorem toLogEntry_fromLogEntry (beyond : ℕ → UInt8) (entry : NuraftMesg.LogEntry) :
    (toLogEntry (fromLogEntry beyond entry).1).SameContent entry where
  term := rfl
  valType := by simp [toLogEntry, fromLogEntry]
  timestamp := rfl
  bytes := Buffer.copy_data_of_pos_eq_zero beyond (b := entry.buf.rewind) rfl

/-- The entries survive one by one and in order. -/
theorem toLogEntry_fromRCRequest (beyond : ℕ → UInt8) (m : ReqMsg) :
    List.Forall₂ LogEntry.SameContent
      ((fromRCRequest beyond m).1.logEntries.map toLogEntry) m.logEntries := by
  simp only [fromRCRequest, List.map_map]
  induction m.logEntries with
  | nil => exact .nil
  | cons entry rest ih => exact .cons (toLogEntry_fromLogEntry beyond entry) ih

/-- Every request is decoded to one with the same content. -/
theorem toRequest_requestMessage (beyond : ℕ → UInt8) (m : ReqMsg) :
    ∃ r, toRequest (requestMessage beyond m) = some r ∧ r.SameContent m := by
  refine ⟨_, rfl, ?_, rfl, rfl, rfl, toLogEntry_fromRCRequest beyond m⟩
  simp [requestMessage, RaftMessage.getBase, fromBaseRequest]

/-! ## Answers -/

/-- Every answer is decoded, and all but the context agrees; the context is
whatever the encoder copied. -/
theorem toResponse_replyMessage (beyond : ℕ → UInt8) (m : RespMsg) :
    ∃ r, toResponse (replyMessage beyond m) = some r ∧
      (r.SameContent m ↔ (fromRCResponse beyond m).context = m.context) := by
  refine ⟨_, rfl, ?_⟩
  have hcontext (bytes : List UInt8) :
      ((if 0 < bytes.length then some (Buffer.ofBytes bytes) else none).map Buffer.bytes).getD []
        = bytes := by
    cases bytes <;> rfl
  constructor
  · intro hsame
    have h := hsame.context
    rwa [RespMsg.context, hcontext] at h
  · intro hctx
    refine ⟨?_, rfl, rfl, ?_, ?_, ?_⟩
    · simp [replyMessage, RaftMessage.getBase, fromBaseRequest]
    · simp [fromRCResponse]
    · simp [fromRCResponse]
    · rw [RespMsg.context, hcontext, hctx]

/-- The copied context is the whole buffer, in any surrounding memory, exactly
when there is no buffer or it stands at position zero. -/
theorem fromRCResponse_context_iff (m : RespMsg) :
    (∀ beyond, (fromRCResponse beyond m).context = m.context) ↔
      ∀ ctx, m.ctx = some ctx → ctx.pos = 0 := by
  cases hctx : m.ctx with
  | none => simp [fromRCResponse, RespMsg.context, hctx]
  | some b =>
    simp only [fromRCResponse, RespMsg.context, hctx, Option.map_some, Option.getD_some,
      Option.some.injEq, forall_eq']
    constructor
    · intro h
      -- A shifted copy ends with a byte from beyond the block, which need not be the last one.
      by_contra hne
      have hpos := b.pos_le
      have hlast : b.bytes.length - 1 < b.bytes.length := by omega
      have hcopy := h fun _ => b.bytes[b.bytes.length - 1] + 1
      rw [b.copy_data] at hcopy
      have hbyte := congrArg (fun bytes => bytes.getD (b.bytes.length - 1) 0) hcopy
      simp only [List.getD_eq_getElem _ _ hlast] at hbyte
      rw [List.getD_eq_getElem _ _ (by simp; omega), List.getElem_append_right (by simp; omega)]
        at hbyte
      simp at hbyte
    · intro hpos beyond
      exact Buffer.copy_data_of_pos_eq_zero beyond hpos

/-- An answer survives encoding and decoding, in any surrounding memory, exactly
when its context is absent or stands at position zero. -/
theorem response_round_trip_iff (m : RespMsg) :
    (∀ beyond, ∃ r, toResponse (replyMessage beyond m) = some r ∧ r.SameContent m) ↔
      ∀ ctx, m.ctx = some ctx → ctx.pos = 0 := by
  rw [← fromRCResponse_context_iff]
  apply forall_congr'
  intro beyond
  obtain ⟨r, hr, hsame⟩ := toResponse_replyMessage beyond m
  simp [hr, hsame]

/-- An accepted answer whose two-byte context stands after its first byte. -/
def shiftedReply : RespMsg where
  term := 1
  type := ⟨4⟩
  src := 1
  dst := 2
  nextIdx := 7
  accepted := true
  nextBatchSizeHintInBytes := 0
  resultCode := .ok
  ctx := some ⟨[10, 20], 1, by decide⟩

/-- The shifted answer arrives without its first byte and with a byte of foreign
memory at its end. -/
theorem shiftedReply_not_preserved :
    ¬ ∃ r, toResponse (replyMessage (fun _ => 99) shiftedReply) = some r ∧
      r.SameContent shiftedReply := by
  rintro ⟨r, hr, hsame⟩
  obtain rfl := Option.some.inj hr
  exact absurd hsame.context (by decide)

end NuraftMesg
