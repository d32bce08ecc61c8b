import DpdkSpi.Tcp.Interleave

/-!
# The directions of a connection

`MakeKey` puts the two ends of a packet in order and says which of them came first.  The key is
one of the connection (`makeKey_fst_eq_iff`); together with the index it is one of the directed
connection, as long as the two ends differ.
-/

namespace DpdkSpi

/-! ## Directed connections -/

/-- The source of a packet and its destination, addresses of one IP version with their ports. -/
abbrev DirectedConnection :=
  ((BitVec 32 × BitVec 16) × (BitVec 32 × BitVec 16)) ⊕
    ((Ip6Address × BitVec 16) × (Ip6Address × BitVec 16))

/-- The other direction. -/
def DirectedConnection.reverse : DirectedConnection → DirectedConnection :=
  Sum.map Prod.swap Prod.swap

/-- The connection, without the direction. -/
def DirectedConnection.undirected : DirectedConnection → Connection :=
  Sum.map (fun p ↦ s(p.1, p.2)) fun p ↦ s(p.1, p.2)

/-- Source and destination differ, in the address or in the port. -/
def DirectedConnection.DistinctEnds : DirectedConnection → Prop
  | .inl (source, destination) => source ≠ destination
  | .inr (source, destination) => source ≠ destination

instance : (c : DirectedConnection) → Decidable c.DistinctEnds
  | .inl (source, destination) => inferInstanceAs (Decidable (source ≠ destination))
  | .inr (source, destination) => inferInstanceAs (Decidable (source ≠ destination))

/-- The directed connection of a packet. -/
def directedConnectionOf (metadata : PacketMetadata) : DirectedConnection :=
  match metadata.ipVersion with
  | .kIpv4 => .inl ((metadata.sourceIpBe, metadata.sourcePortBe),
      (metadata.destinationIpBe, metadata.destinationPortBe))
  | .kIpv6 => .inr ((metadata.sourceIp6Address, metadata.sourcePortBe),
      (metadata.destinationIp6Address, metadata.destinationPortBe))

theorem undirected_directedConnectionOf (metadata : PacketMetadata) :
    (directedConnectionOf metadata).undirected = connectionOf metadata := by
  unfold directedConnectionOf connectionOf
  cases metadata.ipVersion <;> rfl

/-- A connection has two directions. -/
theorem DirectedConnection.undirected_eq_iff {c c' : DirectedConnection} :
    c.undirected = c'.undirected ↔ c = c' ∨ c = c'.reverse := by
  unfold undirected reverse
  cases c with
  | inl p => cases c' <;> simp [Prod.ext_iff]
  | inr p => cases c' <;> simp [Prod.ext_iff]

/-! ## The ends of a key -/

/-- The ends that `MakeKey` compares. -/
def DirectedConnection.ends : DirectedConnection → Endpoint × Endpoint
  | .inl (source, destination) =>
      (⟨.ofWord source.1, source.2⟩, ⟨.ofWord destination.1, destination.2⟩)
  | .inr (source, destination) => (⟨source.1, source.2⟩, ⟨destination.1, destination.2⟩)

theorem ends_directedConnectionOf (metadata : PacketMetadata) :
    (directedConnectionOf metadata).ends =
      (sourceEndpoint metadata, destinationEndpoint metadata) := by
  unfold directedConnectionOf sourceEndpoint destinationEndpoint
  cases metadata.ipVersion <;> rfl

@[simp] theorem DirectedConnection.ends_reverse (c : DirectedConnection) :
    c.reverse.ends = c.ends.swap := by
  cases c <;> rfl

/-- Ends that differ in the packet differ in the key. -/
theorem DirectedConnection.DistinctEnds.ends_ne {c : DirectedConnection} (h : c.DistinctEnds) :
    c.ends.1 ≠ c.ends.2 := by
  intro hends
  cases c with
  | inl p => exact h (endpoint_ofWord_injective hends)
  | inr p => exact h (endpoint_ofBytes_injective hends)

/-- Of two different ends exactly one is less than the other. -/
theorem endpointLess_swap_of_ne {e f : Endpoint} (h : e ≠ f) :
    endpointLess f e = !endpointLess e f := by
  cases hef : endpointLess e f with
  | true => exact endpointLess_asymm hef
  | false =>
      cases hfe : endpointLess f e with
      | true => rfl
      | false => exact absurd (eq_of_not_endpointLess hef hfe) h

/-! ## The direction index -/

/-- `source_first`. -/
def DirectedConnection.sourceFirst (c : DirectedConnection) : Bool :=
  endpointLess c.ends.1 c.ends.2

theorem DirectedConnection.sourceFirst_reverse {c : DirectedConnection} (h : c.DistinctEnds) :
    c.reverse.sourceFirst = !c.sourceFirst := by
  unfold sourceFirst
  rw [ends_reverse, Prod.fst_swap, Prod.snd_swap]
  exact endpointLess_swap_of_ne h.ends_ne

theorem makeKey_snd_eq_iff {metadata metadata' : PacketMetadata} :
    (makeKey metadata).2 = (makeKey metadata').2 ↔
      (directedConnectionOf metadata).sourceFirst =
        (directedConnectionOf metadata').sourceFirst := by
  unfold DirectedConnection.sourceFirst
  rw [ends_directedConnectionOf, ends_directedConnectionOf, makeKey, makeKey]
  dsimp only
  cases endpointLess (sourceEndpoint metadata) (destinationEndpoint metadata) with
  | true =>
      cases endpointLess (sourceEndpoint metadata') (destinationEndpoint metadata') with
      | true => simp
      | false => simp
  | false =>
      cases endpointLess (sourceEndpoint metadata') (destinationEndpoint metadata') with
      | true => simp
      | false => simp

/-- Packets have the same key and the same index when they are of the same directed connection,
the same key and the other index when they are of opposite ones, and different keys in all other
cases.  It is enough that the two ends of one of the packets differ. -/
theorem makeKey_identifies {metadata metadata' : PacketMetadata}
    (h : (directedConnectionOf metadata').DistinctEnds) :
    ((makeKey metadata).1 = (makeKey metadata').1 ∧ (makeKey metadata).2 = (makeKey metadata').2 ↔
        directedConnectionOf metadata = directedConnectionOf metadata') ∧
      ((makeKey metadata).1 = (makeKey metadata').1 ∧
          (makeKey metadata).2 ≠ (makeKey metadata').2 ↔
        directedConnectionOf metadata = (directedConnectionOf metadata').reverse) ∧
      (directedConnectionOf metadata ≠ directedConnectionOf metadata' →
        directedConnectionOf metadata ≠ (directedConnectionOf metadata').reverse →
        (makeKey metadata).1 ≠ (makeKey metadata').1) := by
  have hkey : (makeKey metadata).1 = (makeKey metadata').1 ↔
      directedConnectionOf metadata = directedConnectionOf metadata' ∨
        directedConnectionOf metadata = (directedConnectionOf metadata').reverse := by
    rw [makeKey_fst_eq_iff, ← undirected_directedConnectionOf, ← undirected_directedConnectionOf,
      DirectedConnection.undirected_eq_iff]
  have hopposite := DirectedConnection.sourceFirst_reverse h
  rw [Ne, makeKey_snd_eq_iff]
  refine ⟨⟨?_, ?_⟩, ⟨?_, ?_⟩, ?_⟩
  · rintro ⟨hsame, hfirst⟩
    rcases hkey.mp hsame with heq | heq
    · exact heq
    · rw [heq, hopposite] at hfirst
      exact absurd hfirst (Bool.not_ne_self _)
  · intro heq
    exact ⟨hkey.mpr (.inl heq), congrArg _ heq⟩
  · rintro ⟨hsame, hfirst⟩
    rcases hkey.mp hsame with heq | heq
    · exact absurd (congrArg _ heq) hfirst
    · exact heq
  · intro heq
    refine ⟨hkey.mpr (.inr heq), ?_⟩
    rw [heq, hopposite]
    exact Bool.not_ne_self _
  · intro hne hne' hsame
    rcases hkey.mp hsame with heq | heq
    · exact hne heq
    · exact hne' heq

/-- The answer of 10.0.0.2:80 to 10.0.0.1:4096. -/
def serverSegment (sequence : BitVec 32) : PacketMetadata :=
  { clientSegment sequence with
    sourceIpBe := (clientSegment sequence).destinationIpBe
    destinationIpBe := (clientSegment sequence).sourceIpBe
    sourcePortBe := (clientSegment sequence).destinationPortBe
    destinationPortBe := (clientSegment sequence).sourcePortBe }

theorem makeKey_identifies_answer :
    (directedConnectionOf (serverSegment 7)).DistinctEnds ∧
      (makeKey (clientSegment 100)).1 = (makeKey (serverSegment 7)).1 ∧
      (makeKey (clientSegment 100)).2 ≠ (makeKey (serverSegment 7)).2 :=
  ⟨by decide,
    (@makeKey_identifies (clientSegment 100) (serverSegment 7) (by decide)).2.1.mpr (by decide)⟩

end DpdkSpi
