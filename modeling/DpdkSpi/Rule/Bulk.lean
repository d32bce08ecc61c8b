import DpdkSpi.Rule.Table

/-!
# Bulk classification

`MatchBulk` runs over the chunks outside and over the packets inside, and stops when
every packet is matched.  For each packet that comes to the same as `Match`
(`bulkLoop_eq`), but only the first 64 packets of a burst take part: the two agree on
a burst exactly when no context has a filter for the packets behind these
(`matchBulk_pointwise_iff`).
-/

namespace DpdkSpi.RuleTable

variable {t : RuleTable} {d : Dpdk} {packet : PacketMetadata}

/-! ## Single classification -/

theorem matched_of_decode {userdata : BitVec 32} {r : ClassificationResult}
    (h : t.decode packet userdata = some r) : r.matched = true := by
  unfold decode at h
  split at h
  · cases h
  · dsimp only at h
    split at h
    · cases h
    · split at h
      · cases h
      · split at h
        · obtain rfl := Option.some.inj h
          rfl
        · cases h

/-- No chunk's classify result for the packet encodes a filter of the table that its
ports and protocol fit. -/
def Unclassified (t : RuleTable) (d : Dpdk) (packet : PacketMetadata)
    (chunks : List AclChunk) : Prop :=
  ∀ chunk ∈ chunks, ∀ classify, chunk.ctx.bind d.aclClassify = some classify →
    t.decode packet (classify (aclInput packet)) = none

/-- The loop of `Match` ends with the default result when it meets no filter, and with
a matched one otherwise. -/
theorem matchLoop_spec (t : RuleTable) (d : Dpdk) (packet : PacketMetadata)
    (chunks : List AclChunk) :
    (t.Unclassified d packet chunks ∧ t.matchLoop d packet chunks = {}) ∨
      (¬ t.Unclassified d packet chunks ∧ (t.matchLoop d packet chunks).matched = true) := by
  induction chunks with
  | nil => exact .inl ⟨by simp [Unclassified], rfl⟩
  | cons chunk rest ih =>
      -- a chunk without an answer changes nothing
      have hskip : (∀ classify, chunk.ctx.bind d.aclClassify = some classify →
          t.decode packet (classify (aclInput packet)) = none) →
          (t.Unclassified d packet (chunk :: rest) ↔ t.Unclassified d packet rest) := by
        intro hnone
        simp only [Unclassified, List.forall_mem_cons]
        exact ⟨fun h ↦ h.2, fun h ↦ ⟨hnone, h⟩⟩
      rw [matchLoop]
      cases hctx : chunk.ctx.bind d.aclClassify with
      | none =>
          rw [hskip (by simp [hctx])]
          exact ih
      | some classify =>
          cases hdec : t.decode packet (classify (aclInput packet)) with
          | none =>
              rw [hskip (by simp [hctx, hdec])]
              simp only [hdec]
              exact ih
          | some r =>
              refine .inr ⟨fun h ↦ ?_, ?_⟩
              · rw [h chunk List.mem_cons_self classify hctx] at hdec
                cases hdec
              · simp only [hdec]
                exact matched_of_decode hdec

/-- A table without ACL is one without chunks. -/
theorem matchPacket_eq_matchLoop (t : RuleTable) (d : Dpdk) (packet : PacketMetadata) :
    t.matchPacket d packet = t.matchLoop d packet t.aclChunks := by
  unfold matchPacket
  split
  · rename_i h
    have hchunks : t.aclChunks = [] := by
      rw [hasNoAcl, Bool.and_eq_true, List.isEmpty_iff] at h
      exact h.1
    rw [hchunks, matchLoop]
  · rfl

theorem matchPacket_eq_default_iff (t : RuleTable) (d : Dpdk) (packet : PacketMetadata) :
    t.matchPacket d packet = {} ↔ t.Unclassified d packet t.aclChunks := by
  rw [matchPacket_eq_matchLoop]
  rcases t.matchLoop_spec d packet t.aclChunks with ⟨hun, hres⟩ | ⟨hun, hres⟩
  · exact iff_of_true hres hun
  · refine iff_of_false (fun h ↦ ?_) hun
    rw [h] at hres
    cases hres

/-! ## The bulk loop -/

/-- What the remaining chunks make of a packet with its result so far. -/
def finish (t : RuleTable) (d : Dpdk) (chunks : List AclChunk)
    (p : PacketMetadata × ClassificationResult) : PacketMetadata × ClassificationResult :=
  if p.2.matched then p else (p.1, t.matchLoop d p.1 chunks)

/-- The result of a packet is its match, or still the default one. -/
def Pending (p : PacketMetadata × ClassificationResult) : Prop := p.2.matched = true ∨ p.2 = {}

theorem finish_nil {p : PacketMetadata × ClassificationResult} (hp : Pending p) :
    t.finish d [] p = p := by
  obtain ⟨q, r⟩ := p
  rcases hp with h | h
  · exact if_pos h
  · obtain rfl : r = {} := h
    rfl

/-- The loop body keeps results pending. -/
theorem Pending.bulkStep {p : PacketMetadata × ClassificationResult} (hp : Pending p)
    (classify : AclInputData → BitVec 32) : Pending (t.bulkStep classify p) := by
  unfold RuleTable.bulkStep
  split
  · exact hp
  · split
    · exact hp
    · rename_i hdec
      exact .inl (matched_of_decode hdec)

/-- Doing one chunk and then the others is doing them all. -/
theorem finish_bulkStep {chunk : AclChunk} {rest : List AclChunk}
    {classify : AclInputData → BitVec 32} (hctx : chunk.ctx.bind d.aclClassify = some classify)
    (p : PacketMetadata × ClassificationResult) :
    t.finish d rest (t.bulkStep classify p) = t.finish d (chunk :: rest) p := by
  by_cases hm : p.2.matched = true
  · simp [finish, bulkStep, hm]
  · cases hdec : t.decode p.1 (classify (aclInput p.1)) with
    | none => simp [finish, bulkStep, hm, hdec, matchLoop, hctx]
    | some r => simp [finish, bulkStep, hm, hdec, matchLoop, hctx, matched_of_decode hdec]

/-- **The bulk loop is the single loop, packet by packet.** -/
theorem bulkLoop_eq (chunks : List AclChunk) (ps : List (PacketMetadata × ClassificationResult))
    (hps : ∀ p ∈ ps, Pending p) : t.bulkLoop d chunks ps = ps.map (t.finish d chunks) := by
  induction chunks generalizing ps with
  | nil =>
      rw [bulkLoop]
      conv_lhs => rw [← List.map_id ps]
      exact List.map_congr_left fun p hp ↦ (finish_nil (hps p hp)).symm
  | cons chunk rest ih =>
      rw [bulkLoop]
      cases hctx : chunk.ctx.bind d.aclClassify with
      | none =>
          dsimp only
          rw [ih ps hps]
          refine List.map_congr_left fun p _ ↦ ?_
          simp only [finish, matchLoop, hctx]
      | some classify =>
          dsimp only
          have hps' : ∀ p ∈ ps.map (t.bulkStep classify), Pending p := by
            intro p hp
            obtain ⟨q, hq, rfl⟩ := List.mem_map.mp hp
            exact (hps q hq).bulkStep classify
          have hgoal : (ps.map (t.bulkStep classify)).map (t.finish d rest) =
              ps.map (t.finish d (chunk :: rest)) := by
            rw [List.map_map]
            exact List.map_congr_left fun p _ ↦ finish_bulkStep hctx p
          split
          · rename_i hall
            -- an early exit: the remaining chunks would not change a matched packet
            rw [← hgoal]
            conv_lhs => rw [← List.map_id (ps.map _)]
            refine List.map_congr_left fun p hp ↦ ?_
            have hm := List.all_eq_true.mp hall p hp
            simp only [finish, hm, if_true, id]
          · rw [ih _ hps', hgoal]

/-! ## Bursts -/

/-- The results of a burst: those of the first 64 packets are the single results, the
others keep their initial value. -/
theorem getElem?_matchBulk (packets : List PacketMetadata) (extra : Nat) {i : Nat}
    (h : packets[i]? = some packet) :
    (t.matchBulk d packets (List.replicate (packets.length + extra) {}))[i]? =
      some (if i < kBulkWidth then t.matchPacket d packet else {}) := by
  obtain ⟨hi, rfl⟩ := List.getElem?_eq_some_iff.mp h
  have hne : packets.isEmpty = false := by
    cases packets with
    | nil => cases hi
    | cons p ps => rfl
  rw [matchBulk, hne, if_neg Bool.false_ne_true]
  split
  · rename_i hno
    rw [List.getElem?_append_left (by simpa using hi), List.getElem?_replicate, if_pos hi,
      matchPacket, if_pos hno]
    split <;> rfl
  · have hpending : ∀ p ∈ (packets.take kBulkWidth).map
        (fun packet ↦ (packet, ({} : ClassificationResult))), Pending p := by
      intro p hp
      obtain ⟨q, -, rfl⟩ := List.mem_map.mp hp
      exact .inr rfl
    dsimp only
    rw [bulkLoop_eq _ _ hpending, List.map_map, List.map_map]
    have hlen : ((packets.take kBulkWidth).map
        ((Prod.snd ∘ t.finish d t.aclChunks) ∘ fun packet ↦ (packet, {}))).length =
          min kBulkWidth packets.length := by simp
    by_cases hlt : i < kBulkWidth
    · rw [if_pos hlt, List.getElem?_append_left (by rw [hlen]; omega), List.getElem?_map,
        List.getElem?_take, if_pos hlt, h, matchPacket_eq_matchLoop]
      rfl
    · rw [if_neg hlt, List.getElem?_append_right (by rw [hlen]; omega), List.getElem?_drop,
        List.getElem?_replicate, if_pos]
      rw [hlen, List.length_take]
      omega

/-- **When `MatchBulk` is `Match` pointwise.**  No chunk has a filter for a packet at
index 64 or above. -/
theorem matchBulk_pointwise_iff (t : RuleTable) (d : Dpdk) (packets : List PacketMetadata)
    (extra : Nat) :
    (∀ (i : Nat) packet, packets[i]? = some packet →
        (t.matchBulk d packets (List.replicate (packets.length + extra) {}))[i]? =
          some (t.matchPacket d packet)) ↔
      ∀ (i : Nat) packet, 64 ≤ i → packets[i]? = some packet →
        t.Unclassified d packet t.aclChunks := by
  constructor
  · intro h i packet hi hget
    have hbulk := h i packet hget
    have hi' : ¬ i < kBulkWidth := Nat.not_lt.mpr hi
    rw [getElem?_matchBulk packets extra hget, if_neg hi', Option.some.injEq] at hbulk
    exact (t.matchPacket_eq_default_iff d packet).mp hbulk.symm
  · intro h i packet hget
    rw [getElem?_matchBulk packets extra hget]
    split
    · rfl
    · rename_i hi
      rw [(t.matchPacket_eq_default_iff d packet).mpr (h i packet (Nat.not_lt.mp hi) hget)]

/-- A table with one group that forwards every TCP packet. -/
def tcpTable : RuleTable where
  groups := [{ name := "tcp", filters := [{ protocol := .kTcp }] }]
  aclChunks := [{ ctx := some 0, groupCount := 1 }]
  aclCtx := some 0
  precedenceOrder := [0]

/-- The libraries as `tcpTable` finds them: its context holds the rule of its filter. -/
def tcpDpdk : Dpdk where
  aclClassify := fun _ ↦ some fun input ↦
    if input.protocol = kIpProtoTcp then encodeUserdata 0 0 else 0
  memberLookup := fun _ _ ↦ rteMemberNoMatch
  hashCrc := fun _ ↦ 0

/-- The last of 65 TCP packets is matched alone and left unmatched in the burst. -/
theorem matchBulk_sixtyfive :
    ¬ ∀ (i : Nat) packet, (List.replicate 65 ({} : PacketMetadata))[i]? = some packet →
      (tcpTable.matchBulk tcpDpdk (List.replicate 65 {}) (List.replicate 65 {}))[i]? =
        some (tcpTable.matchPacket tcpDpdk packet) := by
  intro h
  have hget : (List.replicate 65 ({} : PacketMetadata))[64]? = some ({} : PacketMetadata) := rfl
  have hbulk := getElem?_matchBulk (t := tcpTable) (d := tcpDpdk) _ 0 hget
  rw [List.length_replicate, h 64 {} hget] at hbulk
  revert hbulk
  decide

end DpdkSpi.RuleTable
