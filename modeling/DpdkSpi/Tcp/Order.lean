import DpdkSpi.Lib.Pieces
import DpdkSpi.Tcp.Overlap
import DpdkSpi.Tcp.Single

/-!
# Any order of arrival

A request is cut into pieces, the first of which is recognised as the start of a stream and
none of the others.  In whatever order the pieces come, and however often, none is refused
and in the end the request is there in one stream, exactly if the keys of all of them lead to
the bucket of the stream that the first one opened.  While they come, what has arrived is either
inside the contiguous part or pending, and what is pending lies behind the contiguous part
(`Gathered`).
-/

namespace DpdkSpi

open Lib TcpStreamReassembler

/-! ## Pieces -/

/-- The request `first :: rest`, cut as the reassembler can recognise it. -/
structure IsCut (first : List Byte) (rest : List (List Byte)) : Prop where
  nonempty : ∀ p ∈ first :: rest, p ≠ []
  start : isStreamStart first = true
  others : ∀ p ∈ rest, isStreamStart p = false
  short : (first :: rest).flatten.length < 2 ^ 31

/-- The segment that carries a piece. -/
def segmentAt (isn : BitVec 32) (a : Nat × List Byte) : PendingSegment := ⟨Serial.nth isn a.1, a.2⟩

section

variable {first : List Byte} {rest : List (List Byte)} {isn : BitVec 32}
  {a b : Nat × List Byte}

theorem IsCut.length_pos (hcut : IsCut first rest) (ha : a ∈ placed 0 (first :: rest)) :
    0 < a.2.length :=
  List.length_pos_of_ne_nil (hcut.nonempty a.2 (mem_of_mem_placed ha))

/-- A piece before another one ends before it. -/
theorem IsCut.apart (hcut : IsCut first rest) (ha : a ∈ placed 0 (first :: rest))
    (hb : b ∈ placed 0 (first :: rest)) (hlt : a.1 < b.1) : a.1 + a.2.length ≤ b.1 := by
  have hpos := hcut.length_pos hb
  rcases placed_apart ha hb with rfl | h | h
  · exact absurd hlt (lt_irrefl _)
  · exact h
  · omega

theorem IsCut.eq_of_place (hcut : IsCut first rest) (ha : a ∈ placed 0 (first :: rest))
    (hb : b ∈ placed 0 (first :: rest)) (heq : a.1 = b.1) : a = b := by
  have hposa := hcut.length_pos ha
  have hposb := hcut.length_pos hb
  rcases placed_apart ha hb with rfl | h | h
  · rfl
  · omega
  · omega

/-- Exactly the piece at the front starts a stream. -/
theorem IsCut.start_iff (hcut : IsCut first rest) (ha : a ∈ placed 0 (first :: rest)) :
    isStreamStart a.2 = true ↔ a.1 = 0 := by
  rcases List.mem_cons.mp ha with rfl | ha'
  · exact iff_of_true hcut.start rfl
  · have hpos := hcut.length_pos (a := (0, first)) List.mem_cons_self
    have hle := le_of_mem_placed ha'
    dsimp only at hpos
    have hother := hcut.others a.2 (mem_of_mem_placed ha')
    exact iff_of_false (by simp [hother]) (by omega)

theorem IsCut.sliceAt (ha : a ∈ placed 0 (first :: rest)) :
    SliceAt (first :: rest).flatten isn (Serial.nth isn a.1) a.2 :=
  ⟨a.1, rfl, slice_of_mem_placed ha⟩

theorem IsCut.nth_eq_iff (hcut : IsCut first rest) (ha : a ∈ placed 0 (first :: rest))
    (hb : b ∈ placed 0 (first :: rest)) :
    Serial.nth isn a.1 = Serial.nth isn b.1 ↔ a = b := by
  have hbounda := (slice_of_mem_placed ha).bound
  have hboundb := (slice_of_mem_placed hb).bound
  rw [DpdkSpi.nth_eq_iff hcut.short (by omega) (by omega)]
  exact ⟨hcut.eq_of_place ha hb, congrArg Prod.fst⟩

end

/-! ## What has been gathered -/

/-- The contiguous part of length `n` ends where a piece ends. -/
def Boundary (pieces : List (List Byte)) (n : Nat) : Prop :=
  n = pieces.flatten.length ∨ ∃ a ∈ placed 0 pieces, a.1 = n

/-- While draining: pending pieces do not lie before the end of the contiguous part. -/
structure Gathering (first : List Byte) (rest : List (List Byte)) (isn : BitVec 32)
    (arrived : List (Nat × List Byte)) (d : DirectionState) : Prop where
  stands : d.StandsAt (first :: rest).flatten isn 0
  boundary : Boundary (first :: rest) d.contiguous.length
  pending : ∀ p ∈ d.pending, ∃ a ∈ placed 0 (first :: rest),
    p = segmentAt isn a ∧ d.contiguous.length ≤ a.1
  distinct : d.Distinct
  arrived : ∀ a ∈ arrived, a ∈ placed 0 (first :: rest) ∧
    (a.1 + a.2.length ≤ d.contiguous.length ∨ segmentAt isn a ∈ d.pending)

/-- Between segments: they lie behind it. -/
structure Gathered (first : List Byte) (rest : List (List Byte)) (isn : BitVec 32)
    (arrived : List (Nat × List Byte)) (d : DirectionState) : Prop where
  stands : d.baseKnown = true → d.StandsAt (first :: rest).flatten isn 0 ∧
    Boundary (first :: rest) d.contiguous.length
  empty : d.baseKnown = false → d.contiguous = []
  pending : ∀ p ∈ d.pending, ∃ a ∈ placed 0 (first :: rest),
    p = segmentAt isn a ∧ d.contiguous.length < a.1
  distinct : d.Distinct
  arrived : ∀ a ∈ arrived, a ∈ placed 0 (first :: rest) ∧
    (a.1 + a.2.length ≤ d.contiguous.length ∨ segmentAt isn a ∈ d.pending)

section

variable {first : List Byte} {rest : List (List Byte)} {isn : BitVec 32}
  {arrived : List (Nat × List Byte)} {d : DirectionState}

theorem gathered_empty : Gathered first rest isn [] {} where
  stands h := absurd h Bool.false_ne_true
  empty _ := rfl
  pending _ hp := absurd hp List.not_mem_nil
  distinct := List.nodup_nil
  arrived _ ha := absurd ha List.not_mem_nil

/-- When nothing pending starts at the end of the contiguous part, everything lies behind it. -/
theorem Gathering.done (h : Gathering first rest isn arrived d)
    (hnone : ∀ p ∈ d.pending, p.sequence ≠ d.nextSequence) :
    Gathered first rest isn arrived d where
  stands _ := ⟨h.stands, h.boundary⟩
  empty hunknown := by cases h.stands.known.symm.trans hunknown
  pending p hp := by
    obtain ⟨a, ha, rfl, hle⟩ := h.pending p hp
    refine ⟨a, ha, rfl, lt_of_le_of_ne hle fun heq ↦ hnone _ hp ?_⟩
    rw [h.stands.next_eq, Nat.zero_add, heq]
    rfl
  distinct := h.distinct
  arrived := h.arrived

/-- A round of draining takes the next piece. -/
theorem Gathering.round (hcut : IsCut first rest) (h : Gathering first rest isn arrived d)
    {p : PendingSegment} {before after : List PendingSegment}
    (hpending : d.pending = before ++ p :: after) (hp : p.sequence = d.nextSequence) :
    Gathering first rest isn arrived
      { d.extend p.payload with pending := before ++ after } := by
  have hmem := fun q ↦ DirectionState.mem_pending_iff (q := q) hpending
  obtain ⟨hdistinct, hother⟩ := h.distinct.round hpending
  obtain ⟨a, ha, rfl, hle⟩ := h.pending p ((hmem p).mpr (.inl rfl))
  have hslice := h.stands.continues hcut.short (IsCut.sliceAt ha) hp
  have hplace : a.1 = d.contiguous.length := by
    have hbound := (slice_of_mem_placed ha).bound
    have hbound' := h.stands.slice.bound
    rw [h.stands.next_eq] at hp
    have := (nth_eq_iff hcut.short (by omega) hbound').mp hp
    omega
  have hlength : (d.extend a.2).contiguous.length = a.1 + a.2.length := by
    rw [DirectionState.length_contiguous_extend, hplace]
  refine ⟨(h.stands.extend hslice).withPending _, ?_, ?_, hdistinct, ?_⟩
  · rcases placed_next ha with hend | ⟨b, hb, hnext⟩
    · exact .inl (by rw [Nat.zero_add] at hend; exact hlength.trans hend)
    · exact .inr ⟨b, hb, hnext.trans hlength.symm⟩
  · intro q hq
    obtain ⟨b, hb, rfl, hle'⟩ := h.pending q ((hmem q).mpr (.inr hq))
    refine ⟨b, hb, rfl, ?_⟩
    have hne : a.1 ≠ b.1 := by
      intro heq
      rw [hcut.eq_of_place ha hb heq] at hother
      exact hother _ hq rfl
    have hapart := hcut.apart ha hb (by omega)
    exact hlength.trans_le hapart
  · intro b hb
    obtain ⟨hb', harrived⟩ := h.arrived b hb
    refine ⟨hb', ?_⟩
    rcases harrived with hbefore | hpiece
    · exact .inl (hbefore.trans (by simp))
    · rcases (hmem _).mp hpiece with heq | hpiece
      · have hab : b = a :=
          (hcut.nth_eq_iff hb' ha).mp (congrArg PendingSegment.sequence heq)
        rw [hab]
        exact .inl hlength.ge
      · exact .inr hpiece

/-- Draining ends well and takes everything that follows. -/
theorem Gathering.drains (hcut : IsCut first rest) {limit : Nat}
    (hlimit : (first :: rest).flatten.length ≤ limit) {d' : DirectionState}
    {status : TcpReassemblyStatus} (hdrains : Drains limit d status d')
    (h : Gathering first rest isn arrived d) :
    status = .kReady ∧ Gathered first rest isn arrived d' := by
  induction hdrains with
  | done hnone => exact ⟨rfl, h.done hnone⟩
  | full hmem hp hfull =>
      obtain ⟨a, ha, rfl, hle⟩ := h.pending _ hmem
      have hbound := (h.stands.continues hcut.short (IsCut.sliceAt ha) hp).bound
      dsimp only [segmentAt] at hfull hbound
      omega
  | take hpending hp _ _ ih => exact ih (h.round hcut hpending hp)

/-! ### Room -/

/-- The pending segments, as pieces. -/
theorem Gathered.exists_pieces (h : Gathered first rest isn arrived d) :
    ∃ l : List (Nat × List Byte), d.pending = l.map (segmentAt isn) ∧ l.Nodup ∧
      ∀ a ∈ l, a ∈ placed 0 (first :: rest) ∧ d.contiguous.length < a.1 := by
  have hmap : ∀ pending : List PendingSegment,
      (∀ p ∈ pending, ∃ a ∈ placed 0 (first :: rest),
        p = segmentAt isn a ∧ d.contiguous.length < a.1) →
      ∃ l : List (Nat × List Byte), pending = l.map (segmentAt isn) ∧
        ∀ a ∈ l, a ∈ placed 0 (first :: rest) ∧ d.contiguous.length < a.1 := by
    intro pending hpending
    induction pending with
    | nil => exact ⟨[], rfl, fun a ha ↦ absurd ha List.not_mem_nil⟩
    | cons p pending ih =>
        obtain ⟨a, ha, rfl, hlt⟩ := hpending p List.mem_cons_self
        obtain ⟨l, rfl, hl⟩ := ih fun q hq ↦ hpending q (List.mem_cons_of_mem _ hq)
        refine ⟨a :: l, rfl, fun b hb ↦ ?_⟩
        rcases List.mem_cons.mp hb with rfl | hb
        · exact ⟨ha, hlt⟩
        · exact hl b hb
  obtain ⟨l, hl, hmem⟩ := hmap d.pending h.pending
  refine ⟨l, hl, ?_, hmem⟩
  have hdistinct := h.distinct
  rw [DirectionState.Distinct, hl, List.map_map] at hdistinct
  exact hdistinct.of_map

theorem Boundary.exists_split {pieces : List (List Byte)} {n : Nat} (h : Boundary pieces n) :
    ∃ before after, pieces = before ++ after ∧ before.flatten.length = n := by
  rcases h with rfl | ⟨a, ha, rfl⟩
  · exact ⟨pieces, [], (List.append_nil _).symm, rfl⟩
  · obtain ⟨before, after, hpieces, hplace⟩ := exists_of_mem_placed ha
    exact ⟨before, a.2 :: after, hpieces, by rw [hplace, Nat.zero_add]⟩

/-- There are fewer pending segments than pieces. -/
theorem Gathered.pending_length_le (h : Gathered first rest isn arrived d) :
    d.pending.length ≤ rest.length := by
  obtain ⟨l, hl, hnodup, hmem⟩ := h.exists_pieces
  have hsubset : l ⊆ placed (0 + first.length) rest := by
    intro a ha
    obtain ⟨hcut, hlt⟩ := hmem a ha
    rcases List.mem_cons.mp hcut with rfl | hcut
    · exact absurd hlt (Nat.not_lt_zero _)
    · exact hcut
  rw [hl, List.length_map, ← length_placed (0 + first.length) rest]
  exact (hnodup.subperm hsubset).length_le

/-- A direction holds every byte at most once. -/
theorem Gathered.bytes_le (h : Gathered first rest isn arrived d) :
    d.bytes ≤ (first :: rest).flatten.length := by
  obtain ⟨l, hl, hnodup, hmem⟩ := h.exists_pieces
  have hboundary : ∃ before after, first :: rest = before ++ after ∧
      before.flatten.length = d.contiguous.length := by
    cases hknown : d.baseKnown with
    | false => exact ⟨[], first :: rest, rfl, by rw [h.empty hknown]; rfl⟩
    | true => exact (h.stands hknown).2.exists_split
  obtain ⟨before, after, hpieces, hlength⟩ := hboundary
  have hsubset : l ⊆ placed (0 + before.flatten.length) after := by
    intro a ha
    obtain ⟨ha', hlt⟩ := hmem a ha
    rw [hpieces, placed_append] at ha'
    rcases List.mem_append.mp ha' with ha' | ha'
    · have hbound := (slice_of_mem_placed ha').bound
      omega
    · exact ha'
  have hsum := sum_length_le_of_subset hnodup hsubset
  have hpending : (d.pending.map fun p ↦ p.payload.length).sum =
      (l.map fun a ↦ a.2.length).sum := by
    rw [hl, List.map_map]
    rfl
  rw [DirectionState.bytes, hpending, hpieces, List.flatten_append, List.length_append]
  omega

/-! ### A piece comes -/

theorem Gathered.slicesOf (h : Gathered first rest isn arrived d) :
    d.SlicesOf (first :: rest).flatten isn where
  pending p hp := by
    obtain ⟨a, ha, rfl, -⟩ := h.pending p hp
    exact IsCut.sliceAt ha
  stands hknown := ⟨0, (h.stands hknown).1⟩
  empty := h.empty

variable {env : ReassemblerSetup} {a : Nat × List Byte}

/-- A piece does not contain the end of the contiguous part. -/
theorem Gathered.before_or_behind (hcut : IsCut first rest) (h : Gathered first rest isn arrived d)
    (ha : a ∈ placed 0 (first :: rest)) (hknown : d.baseKnown = true)
    (hlt : a.1 < d.contiguous.length) : a.1 + a.2.length ≤ d.contiguous.length := by
  rcases (h.stands hknown).2 with hend | ⟨b, hb, hplace⟩
  · have hbound := (slice_of_mem_placed ha).bound
    omega
  · rw [← hplace] at hlt ⊢
    exact hcut.apart ha hb hlt

theorem Gathered.distance (hcut : IsCut first rest) (h : Gathered first rest isn arrived d)
    (hknown : d.baseKnown = true) {n : Nat} (hn : n ≤ (first :: rest).flatten.length) :
    sequenceDistance (Serial.nth isn n) d.nextSequence = n - d.contiguous.length := by
  obtain ⟨hstands, -⟩ := h.stands hknown
  have hbound := hstands.slice.bound
  rw [hstands.next_eq, sequenceDistance_nth hcut.short hn hbound, Nat.zero_add]

/-- A piece is never a conflict. -/
theorem Gathered.not_reject (hcut : IsCut first rest) (h : Gathered first rest isn arrived d)
    (ha : a ∈ placed 0 (first :: rest)) :
    route env d (Serial.nth isn a.1) a.2 ≠ .reject := by
  intro hroute
  obtain ⟨⟨-, hknown, -⟩, -, hconflict⟩ := route_reject_iff.mp hroute
  have hbound := (slice_of_mem_placed ha).bound
  have hbase : 0 ≤ sequenceDistance (Serial.nth isn a.1) d.baseSequence := by
    rw [(h.stands hknown).1.base_eq, sequenceDistance_nth hcut.short (by omega) (Nat.zero_le _)]
    omega
  rcases hconflict with hneg | hdiffers
  · exact absurd hneg (not_lt.mpr hbase)
  · exact h.slicesOf.not_differs hcut.short (IsCut.sliceAt ha) hknown hbase hdiffers

/-- A piece that is ignored is there already. -/
theorem Gathered.ignore (hcut : IsCut first rest) (h : Gathered first rest isn arrived d)
    (ha : a ∈ placed 0 (first :: rest)) (hroute : route env d (Serial.nth isn a.1) a.2 = .ignore) :
    a.1 + a.2.length ≤ d.contiguous.length := by
  have hbound := (slice_of_mem_placed ha).bound
  rcases route_ignore hroute with hnil | ⟨hknown, -, hend⟩
  · exact absurd hnil (hcut.nonempty a.2 (mem_of_mem_placed ha))
  · rw [Serial.nth_add, h.distance hcut hknown hbound] at hend
    omega

/-- A piece that is queued lies behind the contiguous part. -/
theorem Gathered.queue (hcut : IsCut first rest) (h : Gathered first rest isn arrived d)
    (ha : a ∈ placed 0 (first :: rest)) (hroute : route env d (Serial.nth isn a.1) a.2 = .queue) :
    d.contiguous.length < a.1 := by
  have hbound := (slice_of_mem_placed ha).bound
  obtain ⟨-, hother, hearly⟩ := route_queue_iff.mp hroute
  cases hknown : d.baseKnown with
  | false =>
      have hplace : a.1 ≠ 0 := by
        rw [ne_eq, ← hcut.start_iff ha, hother hknown]
        exact Bool.false_ne_true
      rw [h.empty hknown]
      exact Nat.pos_of_ne_zero hplace
  | true =>
      have hpos := hearly hknown
      rw [h.distance hcut hknown (by omega)] at hpos
      omega

/-- A piece that is appended starts where the contiguous part ends, and goes in whole. -/
theorem Gathered.append (hcut : IsCut first rest) (h : Gathered first rest isn arrived d)
    (ha : a ∈ placed 0 (first :: rest)) {start : DirectionState} {bytes : List Byte}
    (hroute : route env d (Serial.nth isn a.1) a.2 = .append start bytes) :
    bytes = a.2 ∧ start.contiguous.length = a.1 ∧
      start.StandsAt (first :: rest).flatten isn 0 := by
  have hbound := (slice_of_mem_placed ha).bound
  rcases (route_append hroute).extends_or_starts with
    ⟨hknown, rfl, hle, rfl, hend⟩ | ⟨hunknown, hstart, rfl, rfl⟩
  · rw [Serial.nth_add, h.distance hcut hknown hbound, h.distance hcut hknown (by omega)] at hend
    rw [h.distance hcut hknown (by omega)] at hle ⊢
    have hplace : start.contiguous.length = a.1 := by
      by_contra hne
      have hin := h.before_or_behind hcut ha hknown (by omega)
      omega
    refine ⟨?_, hplace, (h.stands hknown).1⟩
    rw [hplace, sub_self]
    rfl
  · have hplace := (hcut.start_iff ha).mp hstart
    have hempty := h.empty hunknown
    refine ⟨rfl, ?_, rfl, by rw [hplace]; rfl, ?_, ?_⟩
    · rw [DirectionState.withBase, hempty, hplace]
      rfl
    · simp [DirectionState.withBase, hempty, hplace]
    · rw [DirectionState.withBase, hempty]
      exact Slice.nil (Nat.zero_le _)

/-- With the piece at the end of the contiguous part, draining can begin. -/
theorem Gathered.gathering (hcut : IsCut first rest) (h : Gathered first rest isn arrived d)
    (ha : a ∈ placed 0 (first :: rest)) {start : DirectionState}
    (hplace : start.contiguous.length = a.1)
    (hstands : start.StandsAt (first :: rest).flatten isn 0)
    (hcontiguous : start.contiguous = d.contiguous) (hpending : start.pending = d.pending) :
    Gathering first rest isn (arrived ++ [a]) (start.extend a.2) := by
  have hslice : Slice (first :: rest).flatten (0 + start.contiguous.length) a.2 := by
    rw [hplace, Nat.zero_add]
    exact slice_of_mem_placed ha
  have hlength : (start.extend a.2).contiguous.length = a.1 + a.2.length := by
    rw [DirectionState.extend, List.length_append, hplace]
  refine ⟨hstands.extend hslice, ?_, ?_, ?_, ?_⟩
  · rcases placed_next ha with hend | ⟨b, hb, hnext⟩
    · exact .inl (by rw [Nat.zero_add] at hend; exact hlength.trans hend)
    · exact .inr ⟨b, hb, hnext.trans hlength.symm⟩
  · intro p hp
    rw [DirectionState.extend, hpending] at hp
    obtain ⟨b, hb, rfl, hlt⟩ := h.pending p hp
    refine ⟨b, hb, rfl, hlength.trans_le (hcut.apart ha hb ?_)⟩
    rw [← hplace, hcontiguous]
    exact hlt
  · rw [DirectionState.Distinct, DirectionState.extend, hpending]
    exact h.distinct
  · intro b hb
    rcases List.mem_append.mp hb with hb | hb
    · obtain ⟨hb', hbefore | hmem⟩ := h.arrived b hb
      · rw [← hcontiguous, hplace] at hbefore
        exact ⟨hb', .inl (by omega)⟩
      · rw [← hpending] at hmem
        exact ⟨hb', .inr hmem⟩
    · obtain rfl := List.mem_singleton.mp hb
      exact ⟨ha, .inl hlength.ge⟩

theorem Gathered.also (h : Gathered first rest isn arrived d) (ha : a ∈ placed 0 (first :: rest))
    (harrived : a.1 + a.2.length ≤ d.contiguous.length ∨ segmentAt isn a ∈ d.pending) :
    Gathered first rest isn (arrived ++ [a]) d where
  stands := h.stands
  empty := h.empty
  pending := h.pending
  distinct := h.distinct
  arrived b hb := by
    rcases List.mem_append.mp hb with hb | hb
    · exact h.arrived b hb
    · obtain rfl := List.mem_singleton.mp hb
      exact ⟨ha, harrived⟩

theorem Gathered.queued (h : Gathered first rest isn arrived d) (ha : a ∈ placed 0 (first :: rest))
    (hbehind : d.contiguous.length < a.1)
    (hdistinct : ({ d with pending := d.pending ++ [segmentAt isn a] } : DirectionState).Distinct) :
    Gathered first rest isn (arrived ++ [a])
      { d with pending := d.pending ++ [segmentAt isn a] } where
  stands hknown := ⟨(h.stands hknown).1.withPending _, (h.stands hknown).2⟩
  empty := h.empty
  pending p hp := by
    rcases List.mem_append.mp hp with hp | hp
    · exact h.pending p hp
    · exact ⟨a, ha, List.mem_singleton.mp hp, hbehind⟩
  distinct := hdistinct
  arrived b hb := by
    rcases List.mem_append.mp hb with hb | hb
    · obtain ⟨hb', hbefore | hmem⟩ := h.arrived b hb
      · exact ⟨hb', .inl hbefore⟩
      · exact ⟨hb', .inr (List.mem_append_left _ hmem)⟩
    · obtain rfl := List.mem_singleton.mp hb
      exact ⟨ha, .inr (List.mem_append_right _ List.mem_cons_self)⟩

/-- The limits leave room for the pieces, beside `others` bytes. -/
structure Ample (env : ReassemblerSetup) (others : Nat) (pieces : List (List Byte)) : Prop where
  buffered : pieces.flatten.length ≤ env.config.maxBufferedBytesPerDirection.toNat
  segments : pieces.length ≤ env.config.maxOutOfOrderSegments.toNat
  memory : ∀ p ∈ pieces, others + pieces.flatten.length + p.length ≤ env.memoryBudgetBytes

/-- A piece is taken, whatever has come before. -/
theorem Gathered.step (hcut : IsCut first rest) (h : Gathered first rest isn arrived d)
    (ha : a ∈ placed 0 (first :: rest)) {others b b' : Nat} {d' : DirectionState}
    {status : TcpReassemblyStatus} (hample : Ample env others (first :: rest))
    (hb : b ≤ others + d.bytes)
    (houtcome : Outcome env b d (Serial.nth isn a.1) a.2 status d' b') :
    status.isError = false ∧ Gathered first rest isn (arrived ++ [a]) d' := by
  have hcapacity : hasCapacity env b a.2.length = true := by
    have hbytes := h.bytes_le
    have hmemory := hample.memory a.2 (mem_of_mem_placed ha)
    exact hasCapacity_of_le (by omega)
  cases hroute : route env d (Serial.nth isn a.1) a.2 with
  | ignore =>
      obtain ⟨rfl, rfl, -⟩ := houtcome.of_ignore hroute
      exact ⟨rfl, h.also ha (.inl (h.ignore hcut ha hroute))⟩
  | reject => exact absurd hroute (h.not_reject hcut ha)
  | queue =>
      have hbehind := h.queue hcut ha hroute
      have hroom : d.pending.length < env.config.maxOutOfOrderSegments.toNat := by
        have hle := h.pending_length_le
        have hsegments := hample.segments
        rw [List.length_cons] at hsegments
        omega
      rcases houtcome.of_queue_of_room hroute hroom hcapacity with
        ⟨p, hp, hsequence, hsame, rfl, rfl, -⟩ | ⟨p, hp, hsequence, hdiffer, -⟩ |
        ⟨hnew, rfl, rfl, -⟩
      · exact ⟨rfl, h.also ha (.inr (by rw [segmentAt, ← hsequence, ← hsame]; exact hp))⟩
      · obtain ⟨b, hb, rfl, -⟩ := h.pending p hp
        exact absurd (congrArg Prod.snd ((hcut.nth_eq_iff hb ha).mp hsequence)) hdiffer
      · exact ⟨rfl, h.queued ha hbehind (houtcome.distinct rfl h.distinct)⟩
  | append start bytes =>
      have happends := route_append hroute
      obtain ⟨rfl, hplace, hstands⟩ := h.append hcut ha hroute
      have hbound := (slice_of_mem_placed ha).bound
      have hbuffered := hample.buffered
      have hdrains := houtcome.drains_of_room hroute hcapacity (by omega)
      have hgathering := h.gathering hcut ha hplace hstands happends.contiguous_eq
        happends.pending_eq
      obtain ⟨rfl, hgathered⟩ := hgathering.drains hcut hample.buffered hdrains
      exact ⟨rfl, hgathered⟩

/-- When all pieces have arrived, the request is complete. -/
theorem Gathered.complete (hcut : IsCut first rest) (h : Gathered first rest isn arrived d)
    (hall : ∀ a ∈ placed 0 (first :: rest), a ∈ arrived) :
    d.contiguous = (first :: rest).flatten ∧ d.pending = [] := by
  have hpresent : ∀ a ∈ placed 0 (first :: rest), a.1 ≤ d.contiguous.length →
      a.1 + a.2.length ≤ d.contiguous.length := by
    intro a ha hle
    obtain ⟨-, hbefore | hmem⟩ := h.arrived a (hall a ha)
    · exact hbefore
    · obtain ⟨b, hb, heq, hlt⟩ := h.pending _ hmem
      have hab := (hcut.nth_eq_iff ha hb).mp (congrArg PendingSegment.sequence heq)
      rw [← hab] at hlt
      omega
  have hknown : d.baseKnown = true := by
    by_contra hunknown
    have hzero := hpresent (0, first) List.mem_cons_self (Nat.zero_le _)
    have hpos := hcut.length_pos (a := (0, first)) List.mem_cons_self
    rw [h.empty (by simpa using hunknown), List.length_nil] at hzero
    omega
  obtain ⟨hstands, hboundary⟩ := h.stands hknown
  have hlength : d.contiguous.length = (first :: rest).flatten.length := by
    rcases hboundary with hend | ⟨a, ha, hplace⟩
    · exact hend
    · have hle := hpresent a ha hplace.le
      have hpos := hcut.length_pos ha
      omega
  refine ⟨hstands.slice.eq_of_length_eq (Slice.refl _) hlength, ?_⟩
  rw [List.eq_nil_iff_forall_not_mem]
  intro p hp
  obtain ⟨a, ha, -, hlt⟩ := h.pending p hp
  have hbound := (slice_of_mem_placed ha).bound
  omega

end

/-! ## Runs -/

/-- The packet carries a piece of the request. -/
def Arrival.Carries (isn : BitVec 32) (arrival : Arrival) (a : Nat × List Byte) : Prop :=
  dataSequence arrival.metadata = Serial.nth isn a.1 ∧ arrival.payload = a.2

/-- What has been gathered when the packets `seen` have come. -/
def Collected (first : List Byte) (rest : List (List Byte)) (isn : BitVec 32)
    (seen : List Arrival) (d : DirectionState) : Prop :=
  ∃ arrived, Gathered first rest isn arrived d ∧
    ∀ s ∈ seen, ∀ p ∈ placed 0 (first :: rest), s.Carries isn p → p ∈ arrived

theorem collected_empty {first : List Byte} {rest : List (List Byte)} {isn : BitVec 32} :
    Collected first rest isn [] {} :=
  ⟨[], gathered_empty, fun _ hs ↦ absurd hs List.not_mem_nil⟩

/-- The next packet is taken. -/
theorem Collected.step {first : List Byte} {rest : List (List Byte)} {isn : BitVec 32}
    (hcut : IsCut first rest) {env : ReassemblerSetup} {others : Nat}
    (hample : Ample env others (first :: rest)) {arrivals : List Arrival}
    (hcarries : ∀ a ∈ arrivals, ∃ p ∈ placed 0 (first :: rest), a.Carries isn p) :
    ∀ seen a tail d b status d' b', arrivals = seen ++ a :: tail →
      Collected first rest isn seen d → b ≤ others + d.bytes →
      Outcome env b d (dataSequence a.metadata) a.payload status d' b' →
      status.isError = false ∧ Collected first rest isn (seen ++ [a]) d' := by
  rintro seen a tail d b status d' b' hsplit ⟨arrived, hgathered, hseen⟩ hb houtcome
  obtain ⟨p, hp, hsequence, hpayload⟩ := hcarries a (by rw [hsplit]; simp)
  rw [hsequence, hpayload] at houtcome
  obtain ⟨hok, hgathered'⟩ := hgathered.step hcut hp hample hb houtcome
  refine ⟨hok, arrived ++ [p], hgathered', fun s hs q hq hcarried ↦ ?_⟩
  rcases List.mem_append.mp hs with hs | hs
  · exact List.mem_append_left _ (hseen s hs q hq hcarried)
  · obtain rfl := List.mem_singleton.mp hs
    obtain rfl := (hcut.nth_eq_iff hq hp).mp (hcarried.1.symm.trans hsequence)
    exact List.mem_append_right _ List.mem_cons_self

/-- No packet leads to an error, and in the end the connection has a single stream, whose
contiguous part is the request and in which nothing is pending. -/
def Reassembles (env : ReassemblerSetup) (r : TcpStreamReassembler) (key : StreamKey) (i : Fin 2)
    (request : List Byte) (arrivals : List Arrival) : Prop :=
  (∀ result ∈ (r.insertAll env arrivals).1,
      result.status ≠ .kConflictingOverlap ∧ result.status ≠ .kResourceLimit) ∧
    ∃ state, (r.insertAll env arrivals).2.HasOnly key state ∧
      (state.directions i).contiguous = request ∧ (state.directions i).pending = []

theorem TcpReassemblyStatus.isError_eq_false_iff {status : TcpReassemblyStatus} :
    status.isError = false ↔ status ≠ .kConflictingOverlap ∧ status ≠ .kResourceLimit := by
  cases status <;> simp [isError]

section

variable {env : ReassemblerSetup} {r : TcpStreamReassembler} {key : StreamKey} {i : Fin 2}
  {first : List Byte} {rest : List (List Byte)} {isn : BitVec 32} {arrivals : List Arrival}

/-- All packets come upon the stream. -/
theorem reassembles_of_together (hreach : (reassembly env).Reach r) (hkey : r.NoStream key)
    (hstreams : r.streams.keys.length + 1 < env.config.maxConcurrentStreams.toNat)
    (hcut : IsCut first rest) (hample : Ample env r.bufferedBytes (first :: rest))
    (hfor : ∀ a ∈ arrivals, a.IsFor env key i)
    (hcarries : ∀ a ∈ arrivals, ∃ p ∈ placed 0 (first :: rest), a.Carries isn p)
    (hall : ∀ p ∈ placed 0 (first :: rest), ∃ a ∈ arrivals, a.Carries isn p)
    (htime : (arrivals.map Arrival.now).IsChain (WithinTimeout env))
    (htogether : Together env r key arrivals.length) :
    Reassembles env r key i (first :: rest).flatten arrivals := by
  obtain ⟨hresults, d, last, htracks, ⟨arrived, hgathered, hseen⟩, hlast⟩ :=
    Tracks.insertAll hfor (Collected.step hcut hample hcarries) (List.nil_append _).symm
      (tracks_fresh hreach hkey hstreams i) collected_empty htogether htime
  obtain ⟨hcontiguous, hpending⟩ := hgathered.complete hcut fun p hp ↦ by
    obtain ⟨s, hs, hcarried⟩ := hall p hp
    exact hseen s hs p hp hcarried
  refine ⟨fun result hresult ↦
    TcpReassemblyStatus.isError_eq_false_iff.mp (hresults result hresult), ?_⟩
  rcases hlast with ⟨rfl, -⟩ | ⟨⟨t, -, rfl⟩, -⟩
  · obtain ⟨s, hs, -⟩ := hall (0, first) List.mem_cons_self
    exact absurd hs List.not_mem_nil
  · obtain ⟨state, hlookup, rfl, -⟩ := htracks.stream t rfl
    exact ⟨state, ⟨_, rfl, hlookup, htracks.alone⟩, hcontiguous, hpending⟩

/-- A packet that misses the stream leaves a second one of the connection. -/
theorem together_of_reassembles (hreach : (reassembly env).Reach r) (hkey : r.NoStream key)
    (hstreams : r.streams.keys.length + 1 < env.config.maxConcurrentStreams.toNat)
    (hcut : IsCut first rest) (hample : Ample env r.bufferedBytes (first :: rest))
    (hfor : ∀ a ∈ arrivals, a.IsFor env key i)
    (hcarries : ∀ a ∈ arrivals, ∃ p ∈ placed 0 (first :: rest), a.Carries isn p)
    (htime : (arrivals.map Arrival.now).Pairwise (WithinTimeout env)) {request : List Byte}
    (hreassembles : Reassembles env r key i request arrivals) :
    Together env r key arrivals.length := by
  by_contra hastray
  obtain ⟨seen, a, tail, d, last, rfl, htracks, -, hlast, hmiss⟩ :=
    Tracks.insertAll_astray hfor (Collected.step hcut hample hcarries)
      (tracks_fresh hreach hkey hstreams i) collected_empty htime.isChain hastray
  obtain ⟨hresults, state, ⟨home, hhome, -, halone⟩, -⟩ := hreassembles
  rcases hlast with ⟨rfl, -⟩ | ⟨t, ht, rfl⟩
  · exact hmiss (.inr rfl)
  rw [TcpStreamReassembler.insertAll_append] at hresults halone
  have hok : ∀ result ∈ ((r.insertAll env seen).2.insertAll env (a :: tail)).1,
      result.status.isError = false := fun result hresult ↦
    TcpReassemblyStatus.isError_eq_false_iff.mpr
      (hresults result (List.mem_append_right _ hresult))
  rw [List.map_append, List.pairwise_append] at htime
  obtain ⟨-, hlater, hbefore⟩ := htime
  -- the stream that was there, and the one that the packet starts, stay
  obtain ⟨place, hplace, hne, ⟨s₁, hs₁⟩, s₂, hs₂⟩ := htracks.exists_lookup_of_astray
    (hfor a (by simp)) hmiss hok (List.pairwise_cons.mpr ⟨hbefore t ht, hlater⟩)
  have hhome₁ : r.emplacedPlace env key = home := by
    by_contra hne'
    cases (halone _ rfl hne').symm.trans hs₁
  have hhome₂ : place = home := by
    by_contra hne'
    cases (halone place hplace hne').symm.trans hs₂
  exact hne (hhome₂.trans hhome₁.symm)

end

/-- Pieces of a request come in any order, with repetitions, to a reassembler without a stream
for the connection.  If all of them come upon the stream of the first one, no segment leads to an
error, and when all have come the only stream has the request and nothing pending; and if the
timeout is longer than all of it takes, only then. -/
theorem reassembly_order_independent_iff {env : ReassemblerSetup} {r : TcpStreamReassembler}
    (hreach : (reassembly env).Reach r) {key : StreamKey} {i : Fin 2} (hkey : r.NoStream key)
    (hstreams : r.streams.keys.length + 1 < env.config.maxConcurrentStreams.toNat)
    {first : List Byte} {rest : List (List Byte)} (hcut : IsCut first rest) (isn : BitVec 32)
    (hample : Ample env r.bufferedBytes (first :: rest)) {arrivals : List Arrival}
    (hfor : ∀ a ∈ arrivals, a.IsFor env key i)
    (hcarries : ∀ a ∈ arrivals, ∃ p ∈ placed 0 (first :: rest), a.Carries isn p)
    (hall : ∀ p ∈ placed 0 (first :: rest), ∃ a ∈ arrivals, a.Carries isn p) :
    ((arrivals.map Arrival.now).IsChain (WithinTimeout env) →
        Together env r key arrivals.length →
        Reassembles env r key i (first :: rest).flatten arrivals) ∧
      ((arrivals.map Arrival.now).Pairwise (WithinTimeout env) →
        (Reassembles env r key i (first :: rest).flatten arrivals ↔
          Together env r key arrivals.length)) := by
  constructor
  · intro htime htogether
    exact reassembles_of_together hreach hkey hstreams hcut hample hfor hcarries hall htime
      htogether
  · intro htime
    refine ⟨together_of_reassembles hreach hkey hstreams hcut hample hfor hcarries htime, ?_⟩
    exact reassembles_of_together hreach hkey hstreams hcut hample hfor hcarries hall
      htime.isChain

/-- A request in three pieces. -/
def threePieces : List (List Byte) := [asciiBytes "GET ", asciiBytes "/a ", asciiBytes "HTTP"]

/-- The last piece first, and the first one twice. -/
def shuffledPieces : List (Nat × List Byte) :=
  [(7, asciiBytes "HTTP"), (0, asciiBytes "GET "), (0, asciiBytes "GET "), (4, asciiBytes "/a ")]

theorem isCut_threePieces : IsCut (asciiBytes "GET ") [asciiBytes "/a ", asciiBytes "HTTP"] :=
  ⟨by decide, by decide, by decide, by decide⟩

theorem ample_threePieces : Ample defaultSetup 0 threePieces := ⟨by decide, by decide, by decide⟩

theorem carries_clientPieces {isn : BitVec 32} {pieces all : List (Nat × List Byte)}
    (hsubset : pieces ⊆ all) : ∀ a ∈ clientPieces isn pieces, ∃ p ∈ all, a.Carries isn p := by
  intro a ha
  obtain ⟨p, hp, rfl⟩ := List.mem_map.mp ha
  exact ⟨p, hsubset hp, dataSequence_clientSegment _, rfl⟩

theorem carried_clientPieces {isn : BitVec 32} {pieces all : List (Nat × List Byte)}
    (hsubset : all ⊆ pieces) : ∀ p ∈ all, ∃ a ∈ clientPieces isn pieces, a.Carries isn p := by
  intro p hp
  exact ⟨_, List.mem_map_of_mem (hsubset hp), dataSequence_clientSegment _, rfl⟩

theorem reassembly_order_independent_shuffled :
    Reassembles defaultSetup {} clientStreamKey 0 threePieces.flatten
      (clientPieces 0xfffffffe shuffledPieces) := by
  have hsubset : shuffledPieces ⊆ placed 0 threePieces := by decide
  have hall : placed 0 threePieces ⊆ shuffledPieces := by decide
  exact (reassembly_order_independent_iff (r := {}) (.init rfl) (fun _ _ ↦ rfl) (by decide)
    isCut_threePieces 0xfffffffe ample_threePieces (isFor_clientPieces rfl)
    (carries_clientPieces hsubset) (carried_clientPieces hall)).1 (timely_clientPieces _ _ _)
    (by decide +kernel)

/-- The same pieces, and other padding in the key of the last packet: what it carries is pending in
a stream of its own. -/
theorem padding_breaks_reassembly :
    IsCut (asciiBytes "GET ") [asciiBytes "/a ", asciiBytes "HTTP"] ∧
      Ample (paddedSetup 3) 0 threePieces ∧
      (∀ a ∈ clientPieces 0xfffffffe shuffledPieces, a.IsFor (paddedSetup 3) clientStreamKey 0) ∧
      (∀ a ∈ clientPieces 0xfffffffe shuffledPieces,
        ∃ p ∈ placed 0 threePieces, a.Carries 0xfffffffe p) ∧
      (∀ p ∈ placed 0 threePieces,
        ∃ a ∈ clientPieces 0xfffffffe shuffledPieces, a.Carries 0xfffffffe p) ∧
      ((clientPieces 0xfffffffe shuffledPieces).map Arrival.now).IsChain
        (WithinTimeout (paddedSetup 3)) ∧
      ¬∃ place : StreamPlace, place.key = clientStreamKey ∧
        ∃ state, (insertAll (paddedSetup 3) {} (clientPieces 0xfffffffe
            shuffledPieces)).2.streams.lookup place = some state ∧
          (state.directions 0).contiguous = threePieces.flatten := by
  have hsubset : shuffledPieces ⊆ placed 0 threePieces := by decide
  have hall : placed 0 threePieces ⊆ shuffledPieces := by decide
  refine ⟨isCut_threePieces, ⟨by decide, by decide, by decide⟩, isFor_clientPieces rfl,
    carries_clientPieces hsubset, carried_clientPieces hall, timely_clientPieces _ _ _, ?_⟩
  rintro ⟨place, -, state, hlookup, hcontiguous⟩
  have hshort : ∀ e ∈ (insertAll (paddedSetup 3) {} (clientPieces 0xfffffffe
      shuffledPieces)).2.streams.entries, (e.2.directions 0).contiguous ≠ threePieces.flatten := by
    decide +kernel
  exact hshort ⟨place, state⟩ (FinMap.mem_entries.mpr hlookup) hcontiguous

end DpdkSpi
