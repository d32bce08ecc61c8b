import DpdkSpi.Pipeline.Burst
import DpdkSpi.Rule.Bulk

/-!
# The SPI results of a burst

`FinalizePackets` classifies the cache misses of a burst in bulk: the tuple-space index first, then
the member set and the ACL for what is left.  For every packet this comes to what the packet gets
alone (`burstSpi`), as long as the packets behind the first 64 of those left have no filter.
-/

namespace DpdkSpi

variable {cap : Nat} {μ σ : Type}

/-! ## Slots -/

/-- The entry of a packet in the arrays over parsed packets. -/
def PacketSlot.index? : PacketSlot μ → Option Nat
  | .mapped _ i => some i
  | _ => none

/-- A parsed packet that neither the flow cache nor the tuple-space index decides. -/
def isAclMiss (svc : Services μ σ) (rules : RuleTable) (b : ParsedBurst) (i : Nat) : Bool :=
  !(b.bulkAt i).valid && decide (rules.probeTss svc.dpdk (b.keyAt i) = kNoTssHit)

/-- The packets of a burst that are left for the member set and the ACL. -/
def aclMisses (svc : Services μ σ) (rules : RuleTable) (b : ParsedBurst)
    (slots : List (PacketSlot μ)) : List Nat :=
  (slots.filterMap PacketSlot.index?).filter (isAclMiss svc rules b)

theorem probeMisses_fst (svc : Services μ σ) (rules : RuleTable) (b : ParsedBurst)
    (slots : List (PacketSlot μ)) (spiMatches : List ClassificationResult) :
    (probeMisses svc rules b slots spiMatches).1 =
      (aclMisses svc rules b slots).map fun i ↦ (i, b.metadataAt i) := by
  induction slots generalizing spiMatches with
  | nil => rfl
  | cons slot slots ih =>
      cases slot with
      | waiting => exact ih spiMatches
      | unmapped packet => exact ih spiMatches
      | mapped packet i =>
          have hcons : aclMisses svc rules b (.mapped packet i :: slots) =
              if isAclMiss svc rules b i then i :: aclMisses svc rules b slots
              else aclMisses svc rules b slots := by
            rw [aclMisses, List.filterMap_cons_some (show PacketSlot.index? (.mapped packet i) =
              some i from rfl), List.filter_cons]
            rfl
          rw [hcons, probeMisses]
          cases hvalid : (b.bulkAt i).valid with
          | true =>
              rw [if_pos rfl, if_neg (by simp [isAclMiss, hvalid])]
              exact ih spiMatches
          | false =>
              rw [if_neg Bool.false_ne_true]
              dsimp only
              split
              · rename_i htss
                rw [if_neg (by simpa [isAclMiss, hvalid] using htss)]
                exact ih _
              · rename_i htss
                rw [if_pos (by simpa [isAclMiss, hvalid] using htss), List.map_cons]
                exact congrArg ((i, b.metadataAt i) :: ·) (ih spiMatches)

/-- The tuple-space index has written the results of the packets it decides. -/
theorem probeMisses_snd (svc : Services μ σ) (rules : RuleTable) (b : ParsedBurst)
    (slots : List (PacketSlot μ)) (spiMatches : List ClassificationResult) {i : Nat}
    (hi : i < spiMatches.length) :
    (probeMisses svc rules b slots spiMatches).2.length = spiMatches.length ∧
      (probeMisses svc rules b slots spiMatches).2.getD i {} =
        if i ∈ slots.filterMap PacketSlot.index? ∧ (b.bulkAt i).valid = false ∧
            rules.probeTss svc.dpdk (b.keyAt i) ≠ kNoTssHit then
          rules.resultForCategory (rules.probeTss svc.dpdk (b.keyAt i))
        else spiMatches.getD i {} := by
  induction slots generalizing spiMatches with
  | nil => exact ⟨rfl, (if_neg fun h ↦ List.not_mem_nil h.1).symm⟩
  | cons slot slots ih =>
      cases slot with
      | waiting => exact ih spiMatches hi
      | unmapped packet => exact ih spiMatches hi
      | mapped packet j =>
          have hmem : i ∈ (PacketSlot.mapped packet j :: slots).filterMap PacketSlot.index? ↔
              i = j ∨ i ∈ slots.filterMap PacketSlot.index? := by
            rw [List.filterMap_cons_some (show PacketSlot.index? (.mapped packet j) = some j from
              rfl), List.mem_cons]
          rw [probeMisses]
          by_cases hhit : (b.bulkAt j).valid = false ∧
              rules.probeTss svc.dpdk (b.keyAt j) ≠ kNoTssHit
          · rw [if_neg (by rw [hhit.1]; exact Bool.false_ne_true)]
            dsimp only
            rw [if_pos hhit.2]
            obtain ⟨hlength, hget⟩ := ih (spiMatches.set j
              (rules.resultForCategory (rules.probeTss svc.dpdk (b.keyAt j))))
              (by rwa [List.length_set])
            refine ⟨hlength.trans (List.length_set ..), hget.trans ?_⟩
            by_cases hij : i = j
            · subst hij
              have hset : (spiMatches.set i (rules.resultForCategory
                  (rules.probeTss svc.dpdk (b.keyAt i)))).getD i {} =
                    rules.resultForCategory (rules.probeTss svc.dpdk (b.keyAt i)) := by
                rw [List.getD_eq_getElem?_getD, List.getElem?_set_self hi, Option.getD_some]
              rw [hset, ite_self]
              exact (if_pos ⟨hmem.mpr (.inl rfl), hhit⟩).symm
            · rw [List.getD_eq_getElem?_getD, List.getElem?_set_ne fun h ↦ hij h.symm,
                ← List.getD_eq_getElem?_getD]
              simp only [hmem, hij, false_or]
          · have hsame : ¬ (i = j ∧ (b.bulkAt i).valid = false ∧
                rules.probeTss svc.dpdk (b.keyAt i) ≠ kNoTssHit) := by
              rintro ⟨rfl, h⟩
              exact hhit h
            have hcond : (i ∈ (PacketSlot.mapped packet j :: slots).filterMap PacketSlot.index? ∧
                  (b.bulkAt i).valid = false ∧ rules.probeTss svc.dpdk (b.keyAt i) ≠ kNoTssHit) ↔
                i ∈ slots.filterMap PacketSlot.index? ∧ (b.bulkAt i).valid = false ∧
                  rules.probeTss svc.dpdk (b.keyAt i) ≠ kNoTssHit := by
              rw [hmem, or_and_right, or_iff_right hsame]
            simp only [hcond]
            split
            · exact ih spiMatches hi
            · rename_i hvalid
              rw [if_neg fun htss ↦ hhit ⟨by simpa using hvalid, htss⟩]
              exact ih spiMatches hi

/-! ## The member set and the ACL -/

/-- The member set excludes a packet from the ACL. -/
def RuleTable.skips (t : RuleTable) (d : Dpdk) (packet : PacketMetadata) : Bool :=
  match t.memberCtx with
  | none => false
  | some memberCtx =>
      !t.hasWildcardIpRules && decide (RuleTable.memberSetId d memberCtx packet = rteMemberNoMatch)

/-- Only the first 64 packets are looked for in the member set. -/
theorem RuleTable.memberFilterBulk_eq (t : RuleTable) (d : Dpdk) (packets : List PacketMetadata) :
    t.memberFilterBulk d packets (List.replicate packets.length false) =
      (packets.take kBulkWidth).map (t.skips d) ++
        List.replicate (packets.drop kBulkWidth).length false := by
  have hmark : ∀ (memberCtx : Nat) (first rest : List PacketMetadata),
      markSkips d memberCtx first (List.replicate (first.length + rest.length) false) =
        first.map (fun packet ↦ decide (memberSetId d memberCtx packet = rteMemberNoMatch)) ++
          List.replicate rest.length false := by
    intro memberCtx first rest
    induction first with
    | nil =>
        rw [List.length_nil, Nat.zero_add]
        cases List.replicate rest.length false <;> rfl
    | cons packet first ih =>
        rw [List.length_cons, Nat.add_right_comm, List.replicate_succ, markSkips, ih]
        refine congrArg (· :: _) ?_
        split
        · rename_i hno
          exact (decide_eq_true hno).symm
        · rename_i hno
          exact (decide_eq_false hno).symm
  have hnone : List.replicate packets.length false =
      (packets.take kBulkWidth).map (fun _ ↦ false) ++
        List.replicate (packets.drop kBulkWidth).length false := by
    rw [List.map_const', List.replicate_append_replicate, ← List.length_append,
      List.take_append_drop]
  unfold memberFilterBulk
  cases hctx : t.memberCtx with
  | none =>
      have hskips : t.skips d = fun _ ↦ false := by
        funext packet
        simp only [skips, hctx]
      rw [hnone, hskips]
  | some memberCtx =>
      dsimp only
      split
      · rename_i hwild
        have hskips : t.skips d = fun _ ↦ false := by
          funext packet
          simp only [skips, hctx, hwild, Bool.not_true, Bool.false_and]
        rw [hnone, hskips]
      · rename_i hwild
        have hskips : t.skips d =
            fun packet ↦ decide (memberSetId d memberCtx packet = rteMemberNoMatch) := by
          funext packet
          simp only [skips, hctx, Bool.eq_false_iff.mpr hwild, Bool.not_false, Bool.true_and]
        have hlength : packets.length =
            (packets.take kBulkWidth).length + (packets.drop kBulkWidth).length := by
          rw [← List.length_append, List.take_append_drop]
        rw [hlength, hmark, hskips]

/-- Results that belong to their index are found there. -/
theorem getD_storeResults (f : Nat → ClassificationResult) (indices : List Nat)
    (spiMatches : List ClassificationResult) {i : Nat} (hi : i < spiMatches.length) :
    (storeResults spiMatches (indices.map fun j ↦ (j, f j))).getD i {} =
      if i ∈ indices then f i else spiMatches.getD i {} := by
  induction indices generalizing spiMatches with
  | nil => rfl
  | cons j indices ih =>
      rw [storeResults, List.map_cons, List.foldl_cons]
      refine (ih (spiMatches.set j (f j)) (by rwa [List.length_set])).trans ?_
      by_cases hij : i = j
      · subst hij
        rw [List.getD_eq_getElem?_getD, List.getElem?_set_self hi, Option.getD_some, ite_self,
          if_pos List.mem_cons_self]
      · rw [List.getD_eq_getElem?_getD, List.getElem?_set_ne fun h ↦ hij h.symm,
          ← List.getD_eq_getElem?_getD]
        simp only [List.mem_cons, hij, false_or]

/-- What a burst of one packet gets for a cache miss. -/
def burstSpi (svc : Services μ σ) (rules : RuleTable) (metadata : PacketMetadata)
    (key : FlowKey) : ClassificationResult :=
  let tssHit := rules.probeTss svc.dpdk key
  if tssHit ≠ kNoTssHit then rules.resultForCategory tssHit
  else if rules.skips svc.dpdk metadata then {}
  else rules.matchPacket svc.dpdk metadata

/-- No packet behind the first 64 left for the ACL has a filter there. -/
def FitsBulk (svc : Services μ σ) (rules : RuleTable) (b : ParsedBurst)
    (slots : List (PacketSlot μ)) : Prop :=
  ∀ i ∈ (aclMisses svc rules b slots).drop RuleTable.kBulkWidth,
    rules.Unclassified svc.dpdk (b.metadataAt i) rules.aclChunks

theorem RuleTable.length_matchBulk (t : RuleTable) (d : Dpdk) (packets : List PacketMetadata) :
    (t.matchBulk d packets (List.replicate packets.length {})).length = packets.length := by
  have hloop : ∀ (chunks : List AclChunk) (ps : List (PacketMetadata × ClassificationResult)),
      (t.bulkLoop d chunks ps).length = ps.length := by
    intro chunks
    induction chunks with
    | nil => exact fun ps ↦ rfl
    | cons chunk chunks ih =>
        intro ps
        rw [bulkLoop]
        split
        · exact ih ps
        · dsimp only
          split
          · exact List.length_map ..
          · exact (ih _).trans (List.length_map ..)
  unfold matchBulk
  split
  · exact List.length_replicate
  split
  · rw [List.length_append, List.length_replicate, List.length_drop, List.length_replicate,
      Nat.sub_self, Nat.add_zero]
  · rw [List.length_append, List.length_map, hloop, List.length_map, List.length_drop,
      List.length_replicate, List.length_take]
    omega

/-- The results of the ACL are then those of the single packets. -/
theorem matchBulk_eq_map {rules : RuleTable} {d : Dpdk} {first rest : List PacketMetadata}
    (hfirst : first.length ≤ RuleTable.kBulkWidth)
    (hrest : ∀ packet ∈ rest, rules.Unclassified d packet rules.aclChunks) :
    rules.matchBulk d (first ++ rest) (List.replicate (first ++ rest).length {}) =
      (first ++ rest).map (rules.matchPacket d) := by
  refine List.ext_getElem? fun k ↦ ?_
  rw [List.getElem?_map]
  cases hk : (first ++ rest)[k]? with
  | none =>
      have hlength : (first ++ rest).length ≤ k := List.getElem?_eq_none_iff.mp hk
      rw [Option.map_none, List.getElem?_eq_none_iff]
      rw [rules.length_matchBulk]
      exact hlength
  | some packet =>
      have hbulk := RuleTable.getElem?_matchBulk (t := rules) (d := d) (first ++ rest) 0 hk
      rw [Nat.add_zero] at hbulk
      rw [hbulk, Option.map_some]
      split
      · rfl
      · rename_i hwide
        have hmem : packet ∈ rest := by
          rw [List.getElem?_append_right (by omega)] at hk
          exact List.mem_of_getElem? hk
        rw [(rules.matchPacket_eq_default_iff d packet).mpr (hrest packet hmem)]

/-- Filtering by a list of marks that come from the elements. -/
theorem map_fst_filter_zip {α : Type} (l : List α) (mark : α → Bool) :
    ((l.zip (l.map mark)).filter fun m ↦ !m.2).map Prod.fst = l.filter fun a ↦ !mark a := by
  induction l with
  | nil => rfl
  | cons a l ih =>
      rw [List.map_cons, List.zip_cons_cons, List.filter_cons, List.filter_cons, ← ih]
      split <;> rfl

/-- `FibLookupBulk` decides nothing. -/
theorem fibLookupBulk_matched (rules : RuleTable) (misses : List (Nat × PacketMetadata)) :
    ((misses.zip (rules.fibLookupBulk (misses.map Prod.snd)
        (List.replicate misses.length {}))).filter fun m ↦ m.2.matched) = [] ∧
      ((misses.zip (rules.fibLookupBulk (misses.map Prod.snd)
        (List.replicate misses.length {}))).filter fun m ↦ !m.2.matched).map Prod.fst = misses := by
  have hmark : ∀ m ∈ misses.zip (rules.fibLookupBulk (misses.map Prod.snd)
      (List.replicate misses.length {})), m.2.matched = false := by
    intro m hm
    rw [List.eq_of_mem_replicate (List.of_mem_zip hm).2]
  refine ⟨List.filter_eq_nil_iff.mpr fun m hm ↦ by simp [hmark m hm], ?_⟩
  rw [List.filter_eq_self.mpr fun m hm ↦ by simp [hmark m hm], List.map_fst_zip]
  exact (List.length_replicate).ge

/-- The packets of a burst for the ACL: those of the first 64 that the member set does not
exclude, and the others. -/
def aclPackets (svc : Services μ σ) (rules : RuleTable) (b : ParsedBurst)
    (slots : List (PacketSlot μ)) : List Nat :=
  ((aclMisses svc rules b slots).take RuleTable.kBulkWidth).filter
      (fun i ↦ !rules.skips svc.dpdk (b.metadataAt i)) ++
    (aclMisses svc rules b slots).drop RuleTable.kBulkWidth

theorem spiResults_eq {svc : Services μ σ} {rules : RuleTable} {b : ParsedBurst}
    {slots : List (PacketSlot μ)} (hfits : FitsBulk svc rules b slots) :
    spiResults svc rules b slots =
      storeResults (probeMisses svc rules b slots (List.replicate b.metadata.length {})).2
        ((aclPackets svc rules b slots).map fun i ↦
          (i, rules.matchPacket svc.dpdk (b.metadataAt i))) := by
  generalize hindices : aclMisses svc rules b slots = indices
  let entry : Nat → Nat × PacketMetadata := fun i ↦ (i, b.metadataAt i)
  let first := indices.take RuleTable.kBulkWidth
  let rest := indices.drop RuleTable.kBulkWidth
  let kept := first.filter fun i ↦ !rules.skips svc.dpdk (b.metadataAt i)
  have hsplit : indices = first ++ rest := (List.take_append_drop _ _).symm
  obtain ⟨hhits, hreal⟩ := fibLookupBulk_matched rules (indices.map entry)
  have hskip : rules.memberFilterBulk svc.dpdk ((indices.map entry).map Prod.snd)
      (List.replicate (indices.map entry).length false) =
        first.map (fun i ↦ rules.skips svc.dpdk (b.metadataAt i)) ++
          rest.map fun _ ↦ false := by
    have hlength : (indices.map entry).length = ((indices.map entry).map Prod.snd).length :=
      (List.length_map _).symm
    rw [hlength, rules.memberFilterBulk_eq, List.map_map, ← List.map_take, ← List.map_drop,
      List.map_map, List.length_map, List.map_const']
    rfl
  have hfinal : (((indices.map entry).zip (first.map (fun i ↦
      rules.skips svc.dpdk (b.metadataAt i)) ++ rest.map fun _ ↦ false)).filter
        fun m ↦ !m.2).map Prod.fst = (kept ++ rest).map entry := by
    have hzip : ∀ (l : List Nat) (mark : Nat → Bool),
        (((l.map entry).zip (l.map mark)).filter fun m ↦ !m.2).map Prod.fst =
          (l.filter fun i ↦ !mark i).map entry := by
      intro l mark
      rw [← map_fst_filter_zip l mark, List.zip_map_left, List.filter_map, List.map_map,
        List.map_map]
      rfl
    rw [hsplit, List.map_append, List.zip_append (by rw [List.length_map, List.length_map]),
      List.filter_append, List.map_append, hzip, hzip, List.map_append]
    congr 2
    exact List.filter_eq_self.mpr fun _ _ ↦ rfl
  have hacl : rules.matchBulk svc.dpdk (((kept ++ rest).map entry).map Prod.snd)
      (List.replicate ((kept ++ rest).map entry).length {}) =
        (kept ++ rest).map fun i ↦ rules.matchPacket svc.dpdk (b.metadataAt i) := by
    have hpackets : ((kept ++ rest).map entry).map Prod.snd =
        kept.map b.metadataAt ++ rest.map b.metadataAt := by
      rw [List.map_map, ← List.map_append]
      rfl
    have hlength : ((kept ++ rest).map entry).length =
        (kept.map b.metadataAt ++ rest.map b.metadataAt).length := by
      rw [← hpackets]
      exact (List.length_map _).symm
    have hshort : (kept.map b.metadataAt).length ≤ RuleTable.kBulkWidth := by
      rw [List.length_map]
      exact (List.length_filter_le _ _).trans (List.length_take_le _ _)
    rw [hpackets, hlength, matchBulk_eq_map hshort, ← List.map_append, List.map_map]
    · rfl
    · intro packet hpacket
      obtain ⟨i, hi, rfl⟩ := List.mem_map.mp hpacket
      rw [FitsBulk, hindices] at hfits
      exact hfits i hi
  unfold spiResults aclPackets
  dsimp only
  rw [probeMisses_fst, hindices, hhits, hreal, hskip, hfinal, hacl, List.map_map, List.map_nil,
    ← List.zip_map']
  rfl

/-- **The SPI results of a burst are those of its packets**, for every cache miss. -/
theorem getD_spiResults {svc : Services μ σ} {rules : RuleTable} {b : ParsedBurst}
    {slots : List (PacketSlot μ)} (hfits : FitsBulk svc rules b slots) {i : Nat}
    (hmem : i ∈ slots.filterMap PacketSlot.index?) (hlt : i < b.metadata.length)
    (hmiss : (b.bulkAt i).valid = false) :
    (spiResults svc rules b slots).getD i {} =
      burstSpi svc rules (b.metadataAt i) (b.keyAt i) := by
  obtain ⟨hlength, hprobed⟩ := probeMisses_snd svc rules b slots
    (List.replicate b.metadata.length {}) (i := i) (by rwa [List.length_replicate])
  rw [spiResults_eq hfits, getD_storeResults _ _ _ (by rwa [hlength, List.length_replicate])]
  have hindices : i ∈ aclMisses svc rules b slots ↔
      rules.probeTss svc.dpdk (b.keyAt i) = kNoTssHit := by
    rw [aclMisses, List.mem_filter, and_iff_right hmem, isAclMiss, hmiss, Bool.not_false,
      Bool.true_and, decide_eq_true_iff]
  have hsub : i ∈ aclPackets svc rules b slots → i ∈ aclMisses svc rules b slots := by
    intro h
    rcases List.mem_append.mp h with h | h
    · exact List.mem_of_mem_take (List.mem_of_mem_filter h)
    · exact List.mem_of_mem_drop h
  unfold burstSpi
  dsimp only
  by_cases htss : rules.probeTss svc.dpdk (b.keyAt i) = kNoTssHit
  · have hdefault :
        (List.replicate b.metadata.length ({} : ClassificationResult)).getD i {} = {} := by
      rw [List.getD_eq_getElem?_getD, List.getElem?_replicate]
      split <;> rfl
    rw [if_neg fun h ↦ h.2.2 htss, hdefault] at hprobed
    rw [hprobed, if_neg (not_not.mpr htss)]
    by_cases hrest : i ∈ (aclMisses svc rules b slots).drop RuleTable.kBulkWidth
    · rw [(rules.matchPacket_eq_default_iff svc.dpdk _).mpr (hfits i hrest), ite_self, ite_self]
    · have hfirst : i ∈ (aclMisses svc rules b slots).take RuleTable.kBulkWidth := by
        have h := hindices.mpr htss
        rw [← List.take_append_drop RuleTable.kBulkWidth (aclMisses svc rules b slots)] at h
        exact (List.mem_append.mp h).resolve_right hrest
      have hkept : i ∈ aclPackets svc rules b slots ↔
          rules.skips svc.dpdk (b.metadataAt i) = false := by
        rw [aclPackets, List.mem_append, or_iff_left hrest, List.mem_filter,
          and_iff_right hfirst, Bool.not_eq_true']
      cases hskips : rules.skips svc.dpdk (b.metadataAt i) with
      | true => rw [if_neg (by simp [hkept, hskips]), if_pos rfl]
      | false => rw [if_pos (hkept.mpr hskips), if_neg Bool.false_ne_true]
  · rw [if_pos ⟨hmem, hmiss, htss⟩] at hprobed
    rw [if_neg fun h ↦ htss (hindices.mp (hsub h)), hprobed, if_pos htss]

end DpdkSpi
