import WinNetTest.Fnmp.OidProcess
import Mathlib.Data.List.Induction

/-!
# Receive side scaling

`MpSetRss` gives the queues of an adapter the processors of the indirection
table, each with the index at which it first appears as its hash.  The place
and the size of the table are taken from the parameters themselves and compared
with nothing, so the loop may read beyond the buffer of the request.

The layout of `NDIS_RECEIVE_SCALE_PARAMETERS` comes from the NDIS headers and
is a parameter, as is the numbering of the processors.
-/

namespace WinNetTest.Fnmp.Rss

open Support

def maxRssQueues : ℕ := 64

structure AdapterQueue where
  queueId : UInt32
  rssHash : UInt32
  processorIndex : UInt32
  deriving DecidableEq

/-- `NDIS_SIZEOF_RECEIVE_SCALE_PARAMETERS_REVISION_2` and the offsets of the
fields that are read behind the header. -/
structure ParametersLayout where
  sizeofRevision2 : ℕ
  flags : ℕ
  hashInformation : ℕ
  indirectionTableSize : ℕ
  indirectionTableOffset : ℕ
  header_le : 4 ≤ sizeofRevision2
  flags_le : flags + 2 ≤ sizeofRevision2
  hashInformation_le : hashInformation + 4 ≤ sizeofRevision2
  indirectionTableSize_le : indirectionTableSize + 2 ≤ sizeofRevision2
  indirectionTableOffset_le : indirectionTableOffset + 4 ≤ sizeofRevision2

def field (bytes : List UInt8) (offset width : ℕ) : ℕ :=
  leValue ((bytes.drop offset).take width)

def readField (bytes : List UInt8) (offset width : ℕ) : Option ℕ :=
  if offset + width ≤ bytes.length then some (field bytes offset width)
  else none

/-- The loop over the table: `AssignedProcessors` with `RssHashValues`, or
nothing when the arrays are full. -/
def assignProcessors (entry : ℕ → Option UInt32) :
    ℕ → ℕ → List (UInt32 × UInt32) → Option (Option (List (UInt32 × UInt32)))
  | 0, _, assigned => some (some assigned)
  | remaining + 1, index, assigned => do
    let targetProcessor ← entry index
    if assigned.any fun slot => slot.1 == targetProcessor then
      assignProcessors entry remaining (index + 1) assigned
    else if assigned.length = maxRssQueues then some none
    else
      assignProcessors entry remaining (index + 1)
        (assigned ++ [(targetProcessor, 0x80000000 ||| UInt32.ofNat index)])

def setQueues (assigned : List (UInt32 × UInt32))
    (queues : List AdapterQueue) : List AdapterQueue :=
  queues.mapIdx fun index queue =>
    { queue with
      rssHash := (assigned[index]?.map Prod.snd).getD 0
      processorIndex := (assigned[index]?.map Prod.fst).getD 0 }

/-- `MpSetRss`.  The entries of the table are `PROCESSOR_NUMBER`s of four
bytes. -/
def mpSetRss (layout : ParametersLayout)
    (keGetProcessorIndexFromNumber : ℕ → UInt32) (queues : List AdapterQueue)
    (bytes : List UInt8) : Option (List AdapterQueue) :=
  if bytes.length < layout.sizeofRevision2 then some queues
  else do
    let type ← readField bytes 0 1
    let revision ← readField bytes 1 1
    let size ← readField bytes 2 2
    if type ≠ 0x89 ∨ revision < 2 ∨ size < layout.sizeofRevision2 then
      return queues
    let hashInformation ← readField bytes layout.hashInformation 4
    let flags ← readField bytes layout.flags 2
    if hashInformation &&& 0xFF = 0 ∨ flags &&& 0x10 ≠ 0 then
      return queues
    let tableSize ← readField bytes layout.indirectionTableSize 2
    let tableOffset ← readField bytes layout.indirectionTableOffset 4
    let assigned ← assignProcessors
      (fun index => (readField bytes (tableOffset + 4 * index) 4).map
        keGetProcessorIndexFromNumber) (tableSize / 4) 0 []
    return assigned.elim queues fun assigned => setQueues assigned queues

/-- The `OID_GEN_RECEIVE_SCALE_PARAMETERS` branch of `MpProcessSetOid`. -/
def setReceiveScaleParameters (layout : ParametersLayout)
    (keGetProcessorIndexFromNumber : ℕ → UInt32) (queues : List AdapterQueue)
    (bytes : List UInt8) : Option (NdisStatus × List AdapterQueue) :=
  if bytes.length < layout.sizeofRevision2 then some (.invalidLength, queues)
  else
    (mpSetRss layout keGetProcessorIndexFromNumber queues bytes).map
      fun queues => (.success, queues)

/-- The processing of OID requests gives the request this status. -/
theorem status_setReceiveScaleParameters {layout : ParametersLayout}
    {keGetProcessorIndexFromNumber : ℕ → UInt32}
    {queues after : List AdapterQueue} {status : NdisStatus}
    {sizes : NdisSizes} {request : NdisOidRequest}
    (hoid : request.oid = .genReceiveScaleParameters)
    (hsize : sizes.receiveScaleParameters.toNat = layout.sizeofRevision2)
    (hlength : request.information.bytes.length =
      request.informationBufferLength.toNat)
    (h : setReceiveScaleParameters layout keGetProcessorIndexFromNumber queues
      request.information.bytes = some (status, after))
    (config : AdapterConfig) :
    (mpProcessSetOid sizes config request).status = status := by
  have hshort : request.informationBufferLength < sizes.receiveScaleParameters ↔
      request.information.bytes.length < layout.sizeofRevision2 := by
    rw [UInt32.lt_iff_toNat_lt, hsize, hlength]
  simp only [mpProcessSetOid, hoid, hshort]
  unfold setReceiveScaleParameters at h
  split at h
  · rename_i hlt
    cases h
    rw [if_pos hlt]
  · rename_i hnot
    obtain ⟨_, -, heq⟩ := Option.map_eq_some_iff.mp h
    cases heq
    rw [if_neg hnot]

/-! ## Parameters that enable RSS -/

def Enables (layout : ParametersLayout) (bytes : List UInt8) : Prop :=
  layout.sizeofRevision2 ≤ bytes.length ∧
    (field bytes 0 1 = 0x89 ∧ 2 ≤ field bytes 1 1 ∧
      layout.sizeofRevision2 ≤ field bytes 2 2) ∧
    field bytes layout.hashInformation 4 &&& 0xFF ≠ 0 ∧
    field bytes layout.flags 2 &&& 0x10 = 0

instance (layout : ParametersLayout) (bytes : List UInt8) :
    Decidable (Enables layout bytes) :=
  inferInstanceAs (Decidable (_ ∧ _))

def entryOffset (layout : ParametersLayout) (bytes : List UInt8)
    (index : ℕ) : ℕ :=
  field bytes layout.indirectionTableOffset 4 + 4 * index

def entryCount (layout : ParametersLayout) (bytes : List UInt8) : ℕ :=
  field bytes layout.indirectionTableSize 2 / 4

def TableInside (layout : ParametersLayout) (bytes : List UInt8) : Prop :=
  ∀ index < entryCount layout bytes,
    entryOffset layout bytes index + 4 ≤ bytes.length

instance (layout : ParametersLayout) (bytes : List UInt8) :
    Decidable (TableInside layout bytes) :=
  inferInstanceAs (Decidable (∀ index < _, _))

def processors (layout : ParametersLayout)
    (keGetProcessorIndexFromNumber : ℕ → UInt32) (bytes : List UInt8) :
    List UInt32 :=
  (List.range (entryCount layout bytes)).map fun index =>
    keGetProcessorIndexFromNumber
      (field bytes (entryOffset layout bytes index) 4)

variable {layout : ParametersLayout} {queues : List AdapterQueue}
    {keGetProcessorIndexFromNumber : ℕ → UInt32} {bytes : List UInt8}

theorem mpSetRss_eq :
    mpSetRss layout keGetProcessorIndexFromNumber queues bytes =
      if Enables layout bytes then
        (assignProcessors
          (fun index => (readField bytes (entryOffset layout bytes index) 4).map
            keGetProcessorIndexFromNumber) (entryCount layout bytes) 0 []).map
          fun assigned =>
            assigned.elim queues fun assigned => setQueues assigned queues
      else some queues := by
  have hread : layout.sizeofRevision2 ≤ bytes.length → ∀ {offset width},
      offset + width ≤ layout.sizeofRevision2 →
        readField bytes offset width = some (field bytes offset width) :=
    fun hlength _ _ hle => if_pos (hle.trans hlength)
  have hheader := layout.header_le
  unfold mpSetRss
  by_cases hlength : layout.sizeofRevision2 ≤ bytes.length
  · rw [if_neg (by omega), hread hlength (by omega), hread hlength (by omega),
      hread hlength (by omega), hread hlength layout.hashInformation_le,
      hread hlength layout.flags_le,
      hread hlength layout.indirectionTableSize_le,
      hread hlength layout.indirectionTableOffset_le]
    simp only [Option.bind_eq_bind, Option.bind_some, Enables, hlength,
      true_and]
    by_cases htype : field bytes 0 1 = 0x89 ∧ 2 ≤ field bytes 1 1 ∧
        layout.sizeofRevision2 ≤ field bytes 2 2
    · rw [if_neg (by omega)]
      by_cases hon : field bytes layout.hashInformation 4 &&& 0xFF ≠ 0 ∧
          field bytes layout.flags 2 &&& 0x10 = 0
      · rw [if_neg (by tauto), if_pos ⟨htype, hon⟩, Option.map_eq_bind]
        rfl
      · rw [if_pos (by tauto), if_neg fun h => hon h.2]
        rfl
    · rw [if_pos (by omega), if_neg fun h => htype h.1]
      rfl
  · rw [if_pos (by omega), if_neg fun h => hlength h.1]

/-! ## The loop over the table -/

def firstAppearances (processors : List UInt32) : List (UInt32 × UInt32) :=
  processors.eraseDups.map fun processor =>
    (processor, 0x80000000 ||| UInt32.ofNat (processors.idxOf processor))

variable (l : List UInt32)

theorem eraseDups_concat (a : UInt32) : (l ++ [a]).eraseDups =
      if a ∈ l then l.eraseDups else l.eraseDups ++ [a] := by
  rw [List.eraseDups_append]
  have hone : [a].eraseDups = [a] := rfl
  split <;> simp_all [List.removeAll]

theorem nodup_eraseDups : l.eraseDups.Nodup := by
  induction l using List.reverseRecOn with
  | nil => exact List.nodup_nil
  | append_singleton l a ih =>
    rw [eraseDups_concat]
    split
    · exact ih
    · rename_i ha
      exact List.nodup_append.mpr ⟨ih, List.nodup_singleton a,
        by simpa using fun b hb => ne_of_mem_of_not_mem hb ha⟩

theorem firstAppearances_concat (a : UInt32) :
    firstAppearances (l ++ [a]) = if a ∈ l then firstAppearances l
      else firstAppearances l ++
        [(a, 0x80000000 ||| UInt32.ofNat l.length)] := by
  have hkept : l.eraseDups.map (fun processor =>
      (processor, 0x80000000 ||| UInt32.ofNat ((l ++ [a]).idxOf processor))) =
      firstAppearances l := by
    refine List.map_congr_left fun b hb => ?_
    rw [List.idxOf_append_of_mem (List.mem_eraseDups.mp hb)]
  unfold firstAppearances at hkept ⊢
  rw [eraseDups_concat]
  split
  · exact hkept
  · rename_i ha
    rw [List.map_append, hkept]
    simp [List.idxOf_append_of_notMem ha]

theorem assignProcessors_eq (entry : ℕ → Option UInt32)
    (done rest : List UInt32)
    (hentry : ∀ index < (done ++ rest).length,
      entry index = (done ++ rest)[index]?)
    (hroom : done.eraseDups.length ≤ maxRssQueues) :
    assignProcessors entry rest.length done.length (firstAppearances done) =
      some (if (done ++ rest).eraseDups.length ≤ maxRssQueues then
        some (firstAppearances (done ++ rest)) else none) := by
  induction rest generalizing done with
  | nil => simp [assignProcessors, hroom]
  | cons a rest ih =>
    have hhead : entry done.length = some a := by
      rw [hentry _ (by simp)]
      simp
    have hany : ((firstAppearances done).any fun slot => slot.1 == a) =
        decide (a ∈ done) := by
      rw [Bool.eq_iff_iff]
      simp [firstAppearances, List.mem_eraseDups]
    have hnext := ih (done ++ [a]) (by simpa using hentry)
    rw [List.append_assoc, List.singleton_append, List.length_append,
      List.length_singleton, firstAppearances_concat, eraseDups_concat]
      at hnext
    rw [List.length_cons, assignProcessors, hhead]
    simp only [Option.bind_eq_bind, Option.bind_some, hany, decide_eq_true_eq]
    by_cases ha : a ∈ done
    · rw [if_pos ha, if_pos ha] at hnext
      rw [if_pos ha]
      exact hnext hroom
    · rw [if_neg ha, if_neg ha, List.length_append] at hnext
      rw [if_neg ha]
      have hlength : (firstAppearances done).length =
          done.eraseDups.length := List.length_map ..
      split
      · rename_i hfull
        have hmore : (done ++ a :: rest).eraseDups.length ≥
            (done ++ [a]).eraseDups.length := by
          rw [← List.singleton_append, ← List.append_assoc,
            List.eraseDups_append, List.length_append]
          omega
        rw [eraseDups_concat, if_neg ha, List.length_append,
          List.length_singleton] at hmore
        rw [if_neg (by omega)]
      · refine hnext ?_
        simp only [List.length_singleton]
        omega

theorem mpSetRss_of_inside (henables : Enables layout bytes)
    (hinside : TableInside layout bytes) :
    mpSetRss layout keGetProcessorIndexFromNumber queues bytes =
      let named := processors layout keGetProcessorIndexFromNumber bytes
      some (if named.eraseDups.length ≤ maxRssQueues then
        setQueues (firstAppearances named) queues else queues) := by
  have hcount : (processors layout keGetProcessorIndexFromNumber
      bytes).length = entryCount layout bytes := by simp [processors]
  have hloop := assignProcessors_eq (fun index =>
    (readField bytes (entryOffset layout bytes index) 4).map
      keGetProcessorIndexFromNumber) []
    (processors layout keGetProcessorIndexFromNumber bytes) ?_
    (Nat.zero_le _)
  · rw [List.nil_append, hcount] at hloop
    rw [mpSetRss_eq, if_pos henables,
      show assignProcessors _ _ 0 [] = _ from hloop]
    dsimp only
    split <;> rfl
  · intro index hindex
    rw [List.nil_append, hcount] at hindex
    simp [readField, hinside index hindex, processors, hindex]

/-! ## The hashes -/

theorem toNat_rssHash {index : ℕ} (h : index < 2 ^ 31) :
    (0x80000000 ||| UInt32.ofNat index).toNat = 2 ^ 31 + index := by
  have hor := Nat.two_pow_add_eq_or_of_lt h 1
  rw [UInt32.toNat_or, UInt32.toNat_ofNat_of_lt' (h.trans (by decide))]
  exact (by simpa using hor.symm)

theorem rssHash_clear {index : ℕ} (h : index < 2 ^ 31) :
    ((0x80000000 ||| UInt32.ofNat index) &&& 0x7FFFFFFF).toNat = index := by
  rw [UInt32.toNat_and, toNat_rssHash h]
  have hmod := Nat.and_two_pow_sub_one_eq_mod (2 ^ 31 + index) 31
  rw [Nat.add_mod_left, Nat.mod_eq_of_lt h] at hmod
  exact hmod

theorem length_processors_lt :
    (processors layout keGetProcessorIndexFromNumber bytes).length <
      2 ^ 31 := by
  have hlt := leValue_lt ((bytes.drop layout.indirectionTableSize).take 2)
  have hle : 256 ^ ((bytes.drop layout.indirectionTableSize).take 2).length ≤
      256 ^ 2 := Nat.pow_le_pow_right (by decide) (by simp)
  simp only [processors, List.length_map, List.length_range, entryCount, field]
  omega

/-! ## The assignment -/

/-- The queues have the distinct processors of a table in the order of their
first appearance, and are reset beyond them. -/
structure Assigned (named : List UInt32) (queues assigned : List AdapterQueue) :
    Prop where
  ids : assigned.map (·.queueId) = queues.map (·.queueId)
  used : ∀ k queue, assigned[k]? = some queue → k < named.eraseDups.length →
    named.eraseDups[k]? = some queue.processorIndex ∧
      queue.rssHash = 0x80000000 |||
        UInt32.ofNat (named.idxOf queue.processorIndex) ∧
      named[(queue.rssHash &&& 0x7FFFFFFF).toNat]? = some queue.processorIndex
  reset : ∀ k queue, assigned[k]? = some queue → named.eraseDups.length ≤ k →
      queue.rssHash = 0 ∧ queue.processorIndex = 0
  apart : ∀ k k' queue queue', assigned[k]? = some queue →
    assigned[k']? = some queue' → k < named.eraseDups.length →
    k' < named.eraseDups.length → k ≠ k' →
      queue.processorIndex ≠ queue'.processorIndex ∧
        queue.rssHash ≠ queue'.rssHash

theorem assigned_setQueues {named : List UInt32}
    (hshort : named.length < 2 ^ 31) (queues : List AdapterQueue) :
    Assigned named queues (setQueues (firstAppearances named) queues) := by
  have hget : ∀ (k : ℕ) (queue : AdapterQueue),
      (setQueues (firstAppearances named) queues)[k]? = some queue →
      queue.rssHash = ((firstAppearances named)[k]?.map Prod.snd).getD 0 ∧
        queue.processorIndex =
          ((firstAppearances named)[k]?.map Prod.fst).getD 0 := by
    intro k queue hqueue
    rw [setQueues, List.getElem?_mapIdx] at hqueue
    obtain ⟨old, -, rfl⟩ := Option.map_eq_some_iff.mp hqueue
    exact ⟨rfl, rfl⟩
  have hused : ∀ (k : ℕ) (queue : AdapterQueue),
      (setQueues (firstAppearances named) queues)[k]? = some queue →
      k < named.eraseDups.length →
      named.eraseDups[k]? = some queue.processorIndex ∧
        queue.processorIndex ∈ named ∧ queue.rssHash = 0x80000000 |||
          UInt32.ofNat (named.idxOf queue.processorIndex) := by
    intro k queue hqueue hk
    obtain ⟨hhash, hprocessor⟩ := hget k queue hqueue
    rw [firstAppearances, List.getElem?_map, List.getElem?_eq_getElem hk]
      at hhash hprocessor
    simp only [Option.map_some, Option.getD_some] at hhash hprocessor
    rw [List.getElem?_eq_getElem hk, hprocessor]
    exact ⟨rfl, List.mem_eraseDups.mp (List.getElem_mem hk), hhash⟩
  have hindex : ∀ processor ∈ named, named.idxOf processor < 2 ^ 31 :=
    fun processor hmem => (List.idxOf_lt_length_iff.mpr hmem).trans hshort
  refine ⟨?_, ?_, ?_, ?_⟩
  · refine List.ext_getElem? fun k => ?_
    rw [List.getElem?_map, setQueues, List.getElem?_mapIdx, List.getElem?_map,
      Option.map_map]
    rfl
  · intro k queue hqueue hk
    obtain ⟨hprocessor, hmem, hhash⟩ := hused k queue hqueue hk
    refine ⟨hprocessor, hhash, ?_⟩
    rw [hhash, rssHash_clear (hindex _ hmem)]
    exact List.getElem?_idxOf hmem
  · intro k queue hqueue hk
    have hnone : (firstAppearances named)[k]? = none :=
      List.getElem?_eq_none (by simpa [firstAppearances] using hk)
    simpa [hnone] using hget k queue hqueue
  · intro k k' queue queue' hqueue hqueue' hk hk' hne
    obtain ⟨hprocessor, hmem, hhash⟩ := hused k queue hqueue hk
    obtain ⟨hprocessor', hmem', hhash'⟩ := hused k' queue' hqueue' hk'
    have hprocessors : queue.processorIndex ≠ queue'.processorIndex := by
      intro heq
      refine hne ((List.getElem?_inj hk (nodup_eraseDups named)).mp ?_)
      rw [hprocessor, hprocessor', heq]
    refine ⟨hprocessors, fun heq => ?_⟩
    have hnat := congrArg UInt32.toNat heq
    rw [hhash, hhash', toNat_rssHash (hindex _ hmem),
      toNat_rssHash (hindex _ hmem')] at hnat
    exact hprocessors ((List.idxOf_inj hmem).mp (by omega))

/-- With the table inside the block, the queues get the processors of the
table, if RSS is enabled and there are not too many of them; else they keep
theirs. -/
theorem rss_queues_assigned (hinside : TableInside layout bytes) : ∃ assigned,
      mpSetRss layout keGetProcessorIndexFromNumber queues bytes =
        some assigned ∧
      if Enables layout bytes ∧ (processors layout
          keGetProcessorIndexFromNumber bytes).eraseDups.length ≤
            maxRssQueues then
        Assigned (processors layout keGetProcessorIndexFromNumber bytes)
          queues assigned
      else assigned = queues := by
  by_cases henables : Enables layout bytes
  · refine ⟨_, mpSetRss_of_inside henables hinside, ?_⟩
    simp only [henables, true_and]
    split
    · exact assigned_setQueues length_processors_lt queues
    · rfl
  · refine ⟨queues, by rw [mpSetRss_eq, if_neg henables], ?_⟩
    rw [if_neg fun h => henables h.1]

def sampleLayout : ParametersLayout where
  sizeofRevision2 := 40
  flags := 4
  hashInformation := 8
  indirectionTableSize := 12
  indirectionTableOffset := 16
  header_le := by decide
  flags_le := by decide
  hashInformation_le := by decide
  indirectionTableSize_le := by decide
  indirectionTableOffset_le := by decide

def sampleParameters (tableOffset : UInt8) : List UInt8 :=
  [0x89, 2, 40, 0, 0, 0, 0, 0, 1, 0, 0, 0, 12, 0, 0, 0, tableOffset, 0, 0, 0]
    ++ List.replicate 20 0 ++ [0, 0, 5, 0, 0, 0, 7, 0, 0, 0, 5, 0]

def sampleQueues : List AdapterQueue :=
  [⟨0, 1, 1⟩, ⟨1, 1, 1⟩, ⟨2, 1, 1⟩]

theorem rss_queues_assigned_threeEntries : ∃ assigned,
      mpSetRss sampleLayout (fun number => UInt32.ofNat (number / 65536))
        sampleQueues (sampleParameters 40) = some assigned ∧
      Assigned [5, 7, 5] sampleQueues assigned ∧
      assigned = [⟨0, 0x80000000, 5⟩, ⟨1, 0x80000001, 7⟩, ⟨2, 0, 0⟩] := by
  obtain ⟨assigned, hset, hassigned⟩ := @rss_queues_assigned sampleLayout
    sampleQueues (fun number => UInt32.ofNat (number / 65536))
    (sampleParameters 40) (by decide)
  rw [if_pos (by decide)] at hassigned
  refine ⟨assigned, hset, hassigned, ?_⟩
  exact Option.some.inj (hset.symm.trans (by decide))

/-! ## Bounds -/

end WinNetTest.Fnmp.Rss
