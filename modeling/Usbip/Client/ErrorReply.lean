import Usbip.Client.Segmentation

/-!
# Replies with an error status

A stalled transfer comes back as a RET_SUBMIT with a non-zero status. `device_loop` answers it
with `WORK_SET_ERR`, which is about `work`: in this function the work of the loop, not that of the
URB. So the URB is finished without an error (`readCb_error`), and the loop takes the error for
its own at the next resumption: it reads one more header and ends, and `socket_close_cb` cancels
everything that still waits (`run_error`, `finished_socketCloseCb`).
-/

namespace Usbip.Client

open Framing ListWalk Wire

namespace ReadLoop

/-- **Error isolation** of the reply for `u` between two states: its own work has ended with an
error and no other has ended, the replies to all other URBs are handled as before, and no header
of a reply ends the connection. -/
structure Isolated (s s' : ReadLoop) (u : Transfer) : Prop where
  own : ∃ e : UvErr, s'.finished = s.finished ++ [(u.id, some e)]
  others : ∀ r : GoodReply, ¬ r.EmptyIn → s'.Answers r → s'.Prompt [r]
  connected : ∀ (pdu : UsbipHeader) (rpdu : UsbipHeaderRetSubmit), pdu.u = .retSubmit rpdu →
    (s'.readCb pdu.encode).state = .opening

variable {s t : ReadLoop} {u : Transfer} {chunk : List Byte} {pdu : UsbipHeader}
  {rpdu : UsbipHeaderRetSubmit} {pre post : List Transfer}

/-- What the callback that ends such a header makes of the device. -/
theorem readCb_error (hpc : s.pc = .header) (hwant : s.want = UsbipHeader.size)
    (hret : s.ret = none) (hbuf : s.buf ++ chunk = pdu.encode) (hu : pdu.u = .retSubmit rpdu)
    (hstatus : rpdu.status ≠ 0) (hfind : s.deviceFindUrb pdu.base.seqnum = some (pre, u, post)) :
    s.readCb chunk = { s with
      urbList := pre ++ post
      pc := .header
      want := UsbipHeader.size
      buf := []
      ret := some .eio
      finished := s.finished ++ [(u.id, s.workRet u.id)] } := by
  rw [readCb_header hpc hwant hret hbuf hu, retSubmit_found hfind]
  rw [replied, if_pos hstatus]
  unfold readHeader readPrepare workDone
  dsimp only
  rw [hret]
  rfl

/-! ### After the error -/

/-- A loop with an error of its own finishes nothing any more. -/
theorem readCb_of_ret (hret : s.ret ≠ none) (chunk : List Byte) :
    (s.readCb chunk).finished = s.finished ∧ (s.readCb chunk).ret = s.ret := by
  unfold readCb
  split
  · exact ⟨rfl, rfl⟩
  · have hret' : (s.place chunk).ret ≠ none := hret
    rw [resume_of_ret hret']
    exact ⟨rfl, rfl⟩

theorem run_of_ret {chunks : List (List Byte)} (hret : s.ret ≠ none)
    (hrun : readLoop.run s (chunks.map .read) = some t) : t.finished = s.finished := by
  induction chunks generalizing s with
  | nil => exact congrArg ReadLoop.finished (Option.some.inj hrun).symm
  | cons chunk chunks ih =>
    obtain ⟨-, -, hrun⟩ := run_read hrun
    obtain ⟨hfinished, hsame⟩ := readCb_of_ret hret chunk
    exact (ih (hsame ▸ hret) hrun).trans hfinished

/-- The replies to the other URBs stay unanswered. -/
theorem not_prompt_of_ret {rs : List GoodReply} (hret : s.ret ≠ none) (hne : rs ≠ []) :
    ¬ s.Prompt rs := by
  intro hprompt
  obtain ⟨⟨chunks, t, hflat, hrun⟩, hall⟩ := hprompt _ (le_refl _)
  have hfinished := (hall chunks t hflat hrun).finished
  have hcontained := @contained_append rs [] 0
  rw [Nat.add_zero, List.append_nil, contained_zero, List.append_nil] at hcontained
  rw [run_of_ret hret hrun, hcontained] at hfinished
  have hcount := congrArg List.length hfinished
  rw [List.length_append, List.length_map] at hcount
  exact hne (List.eq_nil_of_length_eq_zero (by omega))

/-- **The next header ends the connection**, whatever it is and however it is cut. -/
theorem run_error {chunks : List (List Byte)} (hopen : s.state = .opening) (hpc : s.pc = .header)
    (hret : s.ret ≠ none) (hlt : s.buf.length < s.want)
    (hlen : s.buf.length + chunks.flatten.length = s.want)
    (hrun : readLoop.run s (chunks.map .read) = some t) :
    t.state = .closing ∧ t.pc = .exited ∧ t.finished = s.finished ∧ t.urbList = s.urbList := by
  induction chunks generalizing s with
  | nil => exact absurd hlen (by rw [List.flatten_nil, List.length_nil]; omega)
  | cons chunk chunks ih =>
    obtain ⟨-, hroom, hrun⟩ := run_read hrun
    rw [List.flatten_cons, List.length_append] at hlen
    by_cases hpart : chunk.length < s.room
    · rw [readCb_header_of_lt hpc hpart] at hrun
      rw [room] at hpart
      exact @ih { s with buf := s.buf ++ chunk } hopen hpc hret
        (by rw [List.length_append]; dsimp only; omega)
        (by rw [List.length_append]; dsimp only; omega) hrun
    · -- the header is complete, and nothing comes after `uv_close`
      have hret' : (s.place chunk).ret ≠ none := hret
      rw [readCb_of_full (by omega), resume_of_ret hret'] at hrun
      have hstate : (s.place chunk).workExit.state = .closing := if_pos hopen
      cases chunks with
      | nil =>
        obtain rfl := Option.some.inj hrun
        exact ⟨hstate, rfl, rfl, rfl⟩
      | cons chunk' chunks =>
        have hopen' := (run_read hrun).1
        rw [hstate] at hopen'
        cases hopen'

/-- Then every other URB is cancelled. -/
theorem finished_socketCloseCb (h : ∀ u ∈ s.urbList, s.workRet u.id = none) :
    s.socketCloseCb.finished = s.finished ++ s.urbList.map fun u => (u.id, some .ecanceled) := by
  unfold socketCloseCb
  dsimp only
  refine congrArg (s.finished ++ ·) (List.map_congr_left fun u hu => ?_)
  rw [h u hu]
  rfl

/-- The work of the URB does not end with an error. -/
theorem errorReply_own (hinv : s.Inv) (hopen : s.state = .opening) (hpc : s.pc = .header)
    (hbuf : s.buf ++ chunk = pdu.encode) (hu : pdu.u = .retSubmit rpdu) (hstatus : rpdu.status ≠ 0)
    (hfind : s.deviceFindUrb pdu.base.seqnum = some (pre, u, post)) :
    ¬ ∃ e : UvErr, (s.readCb chunk).finished = s.finished ++ [(u.id, some e)] := by
  rintro ⟨e, hown⟩
  by_cases hret : s.ret = none
  · obtain ⟨hl, -, -⟩ := findSplit_eq_some hfind
    have hmem : u ∈ s.urbList ++ s.current := by
      rw [hl]
      simp
    have hwant := ((reading_header hpc).mp hinv.reading).1
    rw [readCb_error hpc hwant hret hbuf hu hstatus hfind] at hown
    have hlast := List.append_cancel_left hown
    rw [hinv.owns.result hopen u hmem] at hlast
    cases hlast
  · -- an earlier error: the loop ends without a look at the reply
    rw [(readCb_of_ret hret chunk).1] at hown
    have hcount := congrArg List.length hown
    rw [List.length_append, List.length_singleton] at hcount
    omega

/-- **A reply with an error status is never isolated.** -/
theorem errorReply_not_isolated (hs : readLoop.Reachable s) (hopen : s.state = .opening)
    (hpc : s.pc = .header) (hbuf : s.buf ++ chunk = pdu.encode) (hu : pdu.u = .retSubmit rpdu)
    (hstatus : rpdu.status ≠ 0) (hfind : s.deviceFindUrb pdu.base.seqnum = some (pre, u, post)) :
    ¬ s.Isolated (s.readCb chunk) u :=
  fun hiso => errorReply_own (readLoop_inv hs) hopen hpc hbuf hu hstatus hfind hiso.own

end ReadLoop

/-- A second IN transfer of two bytes. -/
def twoIn : ReadLoop := oneIn.transfer usbipDirIn 2

theorem twoIn_reachable : readLoop.Reachable twoIn := by
  have hstep : readLoop.step oneIn (.transfer usbipDirIn 2) = some twoIn := rfl
  exact .next oneIn_reachable trivial hstep

/-- The header of a reply that says the endpoint has stalled. -/
def stallHeader : UsbipHeader := retSubmitHeader 0 (-32) 0

theorem errorReply_not_isolated_stall :
    ¬ twoIn.Isolated (twoIn.readCb stallHeader.encode) ⟨0, ⟨0, usbipDirIn, true⟩⟩ :=
  @ReadLoop.errorReply_not_isolated twoIn ⟨0, ⟨0, usbipDirIn, true⟩⟩ stallHeader.encode stallHeader
    ⟨-32, 0, 0, 0, 0⟩ [] [⟨1, ⟨1, usbipDirIn, true⟩⟩] twoIn_reachable rfl rfl rfl rfl (by decide)
    rfl

/-- **A stall cancels the other transfer**: its own transfer is reported as a success, and the
reply to the other one ends the connection. -/
theorem stall_ends_connection : readLoop.Reachable twoIn ∧
    ¬ twoIn.Isolated (twoIn.readCb stallHeader.encode) ⟨0, ⟨0, usbipDirIn, true⟩⟩ ∧
    (readLoop.run twoIn [.read stallHeader.encode, .read (retSubmitHeader 1 0 2).encode,
      .socketClosed]).map ReadLoop.finished = some [(0, none), (1, some .ecanceled)] := by
  refine ⟨twoIn_reachable, fun hiso => ?_, by decide⟩
  exact @ReadLoop.errorReply_own twoIn ⟨0, ⟨0, usbipDirIn, true⟩⟩ stallHeader.encode stallHeader
    ⟨-32, 0, 0, 0, 0⟩ [] [⟨1, ⟨1, usbipDirIn, true⟩⟩] (readLoop_inv twoIn_reachable) rfl rfl rfl rfl
    (by decide) rfl hiso.own

end Usbip.Client
