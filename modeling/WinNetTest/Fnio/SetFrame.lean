import WinNetTest.Fnio.Filter

/-!
# Rewriting the information of a captured frame

`FnIoSetFilteredFrame` replaces the checksum, RSC and timestamp information of
a captured NBL, each when its flag is set.  The checksum is written before the
RSC value is checked.  This module states that the call replaces all flagged
fields or none, and proves for which inputs it does.
-/

namespace WinNetTest.Fnio

/-! ## The information -/

def replaceFlagged (frame : FrameInput) (info : NblInfo) : NblInfo :=
  { info with
    tcpIpChecksum := frame.checksum.getD info.tcpIpChecksum
    tcpRecvSegCoalesce :=
      (frame.rsc.map Prod.snd).getD info.tcpRecvSegCoalesce
    timestamp := frame.timestamp.getD info.timestamp }

def FrameInput.RefusesRsc (frame : FrameInput) : Prop :=
  ∃ coalescedSegCount value,
    frame.rsc = some (coalescedSegCount, value) ∧ coalescedSegCount < 1

variable {frame : FrameInput}

theorem updateInfo_of_refusesRsc (h : frame.RefusesRsc) (info : NblInfo) :
    updateInfo frame info = (.invalidParameter, { info with
          tcpIpChecksum := frame.checksum.getD info.tcpIpChecksum }) := by
  obtain ⟨_, _, hrsc, hlt⟩ := h
  cases hchecksum : frame.checksum <;> simp [updateInfo, hrsc, hchecksum, hlt]

theorem updateInfo_of_not_refusesRsc (h : ¬frame.RefusesRsc) (info : NblInfo) :
    updateInfo frame info = (.success, replaceFlagged frame info) := by
  cases hrsc : frame.rsc with
  | none =>
    cases hchecksum : frame.checksum <;> cases htime : frame.timestamp <;>
      simp [updateInfo, replaceFlagged, hrsc, hchecksum, htime]
  | some rsc =>
    have hcount : ¬rsc.1 < 1 := fun hlt => h ⟨rsc.1, rsc.2, hrsc, hlt⟩
    cases hchecksum : frame.checksum <;> cases htime : frame.timestamp <;>
      simp [updateInfo, replaceFlagged, hrsc, hchecksum, htime, hcount]

/-! ## The call -/

/-- The call replaces exactly the flagged fields of exactly the selected NBL,
or it fails and changes nothing. -/
structure AllOrNothing (filter : DataFilter) (index subIndex : ℕ)
    (frame : FrameInput) : Prop where
  failed : (fnIoSetFilteredFrame filter index subIndex frame).1 ≠ .success →
    (fnIoSetFilteredFrame filter index subIndex frame).2 = filter
  succeeded : (fnIoSetFilteredFrame filter index subIndex frame).1 = .success →
    (fnIoGetFilteredFrameNb filter index subIndex).isSome = true ∧
      (fnIoSetFilteredFrame filter index subIndex frame).2 = { filter with
          nblQueue := filter.nblQueue.modify index fun nbl =>
            { nbl with info := replaceFlagged frame nbl.info } }

/-- A checksum other than the present one is written to the selected NBL, and
the RSC value is refused. -/
def Torn (filter : DataFilter) (index subIndex : ℕ) (frame : FrameInput) :
    Prop :=
  frame.bufferCount = 0 ∧ frame.rssHashQueueId = none ∧ frame.RefusesRsc ∧
    ∃ nbl nb, fnIoGetFilteredFrameNb filter index subIndex = some (nbl, nb) ∧
      frame.checksum.getD nbl.info.tcpIpChecksum ≠ nbl.info.tcpIpChecksum

variable {nbl : NetBufferList} {index subIndex : ℕ} {filter : DataFilter}

theorem fnIoSetFilteredFrame_of_found {nb : NetBuffer}
    (hcount : frame.bufferCount = 0) (hrss : frame.rssHashQueueId = none)
    (hfound : fnIoGetFilteredFrameNb filter index subIndex = some (nbl, nb)) :
    fnIoSetFilteredFrame filter index subIndex frame =
      ((updateInfo frame nbl.info).1, { filter with
          nblQueue := filter.nblQueue.modify index fun nbl =>
            { nbl with info := (updateInfo frame nbl.info).2 } }) := by
  simp [fnIoSetFilteredFrame, hcount, hrss, hfound]

theorem getElem?_of_fnIoGetFilteredFrameNb {nb : NetBuffer}
    (hfound : fnIoGetFilteredFrameNb filter index subIndex = some (nbl, nb)) :
    filter.nblQueue.chain[index]? = some nbl := by
  unfold fnIoGetFilteredFrameNb at hfound
  split at hfound
  · cases hfound
  · next nbl' hindex =>
      split at hfound
      · cases hfound
      · cases hfound
        exact hindex

theorem NblCountedQueue.modify_eq_self {q : NblCountedQueue}
    {f : NetBufferList → NetBufferList} (hindex : q.chain[index]? = some nbl)
    (hf : f nbl = nbl) : q.modify index f = q := by
  apply NblCountedQueue.ext
  · apply List.ext_getElem?
    intro i
    rw [NblCountedQueue.modify, List.getElem?_modify]
    by_cases hi : index = i
    · subst hi
      simp [hindex, hf]
    · simp [hi]
  · rfl

/-- A call changes all flagged fields or none if and only if it does not write
a new checksum before it refuses the RSC value. -/
theorem allOrNothing_iff (filter : DataFilter) (index subIndex : ℕ)
    (frame : FrameInput) :
    AllOrNothing filter index subIndex frame ↔
      ¬Torn filter index subIndex frame := by
  constructor
  · rintro hall ⟨hcount, hrss, hrefused, nbl, nb, hfound, hne⟩
    have heq := fnIoSetFilteredFrame_of_found hcount hrss hfound
    have hindex := getElem?_of_fnIoGetFilteredFrameNb hfound
    rw [updateInfo_of_refusesRsc hrefused] at heq
    have hsame := hall.failed (by simp [heq])
    rw [heq] at hsame
    have hchecksum := congrArg (fun filter : DataFilter =>
      filter.nblQueue.chain[index]?.map fun nbl => nbl.info.tcpIpChecksum) hsame
    simp only [NblCountedQueue.modify, List.getElem?_modify, if_true, hindex,
      Option.map_eq_map, Option.map_some, Option.some.injEq,
      updateInfo_of_refusesRsc hrefused] at hchecksum
    exact hne hchecksum
  · intro htorn
    rcases fnIoSetFilteredFrame_cases filter index subIndex frame with
      ⟨_, hstatus, heq⟩ | ⟨nbl, nb, hfound, hcount, hrss, heq⟩
    · rw [Prod.ext_iff] at heq
      exact ⟨fun _ => heq.2, fun hsuccess =>
        absurd (heq.1.symm.trans hsuccess) hstatus⟩
    · by_cases hrefused : frame.RefusesRsc
      · have hsame : frame.checksum.getD nbl.info.tcpIpChecksum =
            nbl.info.tcpIpChecksum :=
          not_not.mp fun hne =>
            htorn ⟨hcount, hrss, hrefused, nbl, nb, hfound, hne⟩
        have hindex := getElem?_of_fnIoGetFilteredFrameNb hfound
        rw [updateInfo_of_refusesRsc hrefused] at heq
        refine ⟨fun _ => ?_, fun hsuccess => ?_⟩
        · rw [heq, NblCountedQueue.modify_eq_self hindex]
          rw [updateInfo_of_refusesRsc hrefused, hsame]
        · simp [heq] at hsuccess
      · simp only [updateInfo_of_not_refusesRsc hrefused] at heq
        exact ⟨fun hfailed => absurd (by rw [heq]) hfailed,
          fun _ => ⟨by rw [hfound]; rfl, by rw [heq]⟩⟩

def oneFrameFilter : DataFilter where
  params := .ofPairs (0, 0xFF) []
  nblQueue := NblCountedQueue.empty.appendSingleNbl
    ⟨0, ⟨[], [], 0, 0⟩, [], ⟨0, 0, 0, 0, 0, 0⟩, some ⟨0, ⟨0, 0⟩, 0⟩⟩
  nblReturn := .empty
  captured := [0]

def checksumAndRsc : FrameInput where
  bufferCount := 0
  rssHashQueueId := none
  checksum := some 7
  rsc := some (0, 0)
  timestamp := none

/-- The call fails, and the checksum has been replaced. -/
theorem checksum_written_by_failed_call :
    (fnIoSetFilteredFrame oneFrameFilter 0 0 checksumAndRsc).1 =
        .invalidParameter ∧
      oneFrameFilter.nblQueue.chain.map (·.info.tcpIpChecksum) = [0] ∧
      (fnIoSetFilteredFrame oneFrameFilter 0 0
        checksumAndRsc).2.nblQueue.chain.map (·.info.tcpIpChecksum) = [7] := by
  decide

end WinNetTest.Fnio
