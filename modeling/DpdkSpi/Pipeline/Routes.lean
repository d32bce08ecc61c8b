import DpdkSpi.Pipeline.Staging

/-!
# Longest prefix match

The table of `BuildL3Routes` is searched from the front, and it is sorted by descending prefix
length.  So `LookupL3TransmitPort` finds a configured route with the longest prefix of those that
contain the destination (`lookupL3TransmitPort_longest`).
-/

namespace DpdkSpi

open Lib (Block)

/-! ## Routes as blocks -/

namespace Ipv4Route

variable {inetPton : InetPton}

/-- The addresses that a configured route is for, when its address parses. -/
def block (inetPton : InetPton) (route : Ipv4Route) : Option (Block 32) :=
  (parseIpv4Address inetPton route.destinationIpAddress).toOption.map
    (⟨·, route.prefixLength.toNat⟩)

/-- The route contains an address. -/
def Contains (inetPton : InetPton) (route : Ipv4Route) (destination : BitVec 32) : Prop :=
  ∃ block, route.block inetPton = some block ∧ block.Contains destination

/-- The entry of a route in the table, and the block it stands for. -/
theorem l3RouteEntry_eq_some {route : Ipv4Route} {entry : L3RouteEntry}
    (h : l3RouteEntry inetPton route = some entry) :
    ∃ block, route.block inetPton = some block ∧ entry.prefixMask = block.mask ∧
      entry.networkAddress = block.address &&& block.mask ∧
      entry.prefixLength = route.prefixLength ∧ entry.outputPort = route.outputPort := by
  unfold l3RouteEntry at h
  cases hparse : parseIpv4Address inetPton route.destinationIpAddress with
  | error e =>
      rw [hparse] at h
      cases h
  | ok address =>
      rw [hparse] at h
      obtain rfl := Option.some.inj h
      refine ⟨⟨address, route.prefixLength.toNat⟩, by rw [block, hparse]; rfl,
        prefixMask_eq _ _, ?_, rfl, rfl⟩
      show address &&& prefixMask route.prefixLength = _
      rw [prefixMask_eq address]

/-- The test of an entry asks whether its route contains the destination. -/
theorem test_l3RouteEntry {route : Ipv4Route} {entry : L3RouteEntry}
    (h : l3RouteEntry inetPton route = some entry) (destination : BitVec 32) :
    destination &&& entry.prefixMask = entry.networkAddress ↔
      route.Contains inetPton destination := by
  obtain ⟨block, hblock, hmask, hnetwork, -, -⟩ := l3RouteEntry_eq_some h
  rw [hmask, hnetwork, ← Block.contains_iff_mask]
  constructor
  · intro hin
    exact ⟨block, hblock, hin⟩
  · rintro ⟨block', hblock', hin⟩
    obtain rfl := Option.some.inj (hblock.symm.trans hblock')
    exact hin

/-- A route that contains an address has an entry. -/
theorem Contains.exists_entry {route : Ipv4Route} {destination : BitVec 32}
    (h : route.Contains inetPton destination) :
    ∃ entry, l3RouteEntry inetPton route = some entry := by
  obtain ⟨block, hblock, -⟩ := h
  unfold Ipv4Route.block at hblock
  unfold l3RouteEntry
  cases hparse : parseIpv4Address inetPton route.destinationIpAddress with
  | error e =>
      rw [hparse] at hblock
      cases hblock
  | ok address => exact ⟨_, rfl⟩

/-- An accepted route is for a block of addresses, none longer than an address. -/
theorem exists_block_of_valid {route : Ipv4Route} {index : Nat}
    (h : validateL3Ipv4Route inetPton route index = .ok ()) :
    ∃ block, route.block inetPton = some block ∧ block.length ≤ 32 := by
  unfold validateL3Ipv4Route at h
  split at h
  · cases h
  rename_i hvalid
  split at h
  · cases h
  rename_i hlength
  rw [hasValidIpv4Address] at hvalid
  cases hparse : parseIpv4Address inetPton route.destinationIpAddress with
  | error e =>
      rw [hparse] at hvalid
      simp [Except.isOk, Except.toBool] at hvalid
  | ok address =>
      refine ⟨⟨address, route.prefixLength.toNat⟩, by rw [block, hparse]; rfl, ?_⟩
      exact Nat.le_of_not_lt hlength

end Ipv4Route

/-! ## The search -/

section Table

variable {inetPton : InetPton} {rs : RouteSort} {l3 : L3ForwardConfig}

/-- The entries of the table are those of the configured routes. -/
theorem mem_buildL3Routes {entry : L3RouteEntry} :
    entry ∈ buildL3Routes inetPton rs l3 ↔
      ∃ route ∈ l3.ipv4Routes, l3RouteEntry inetPton route = some entry := by
  rw [buildL3Routes, (rs.perm _).mem_iff, List.mem_filterMap]

/-- The prefix lengths of the table descend. -/
theorem pairwise_buildL3Routes : (buildL3Routes inetPton rs l3).Pairwise fun lhs rhs ↦
    rhs.prefixLength.toNat ≤ lhs.prefixLength.toNat :=
  rs.sorted _

end Table

/-- **Longest prefix match.**  Every accepted route is for a block of addresses.  The port that is
found is that of a route which contains the destination and whose prefix is the longest of those
that do, and no port is found just when no route contains it. -/
theorem lookupL3TransmitPort_longest (inetPton : InetPton) (rs : RouteSort) (l3 : L3ForwardConfig)
    (hvalid : ∀ route ∈ l3.ipv4Routes, ∃ index, validateL3Ipv4Route inetPton route index = .ok ())
    (metadata : PacketMetadata) :
    (∀ route ∈ l3.ipv4Routes, ∃ block, route.block inetPton = some block ∧ block.length ≤ 32) ∧
      (∀ port, lookupL3TransmitPort (buildL3Routes inetPton rs l3) metadata = some port →
        ∃ route ∈ l3.ipv4Routes, route.outputPort = port ∧
          route.Contains inetPton (rteBeToCpu32 metadata.destinationIpBe) ∧
          ∀ other ∈ l3.ipv4Routes,
            other.Contains inetPton (rteBeToCpu32 metadata.destinationIpBe) →
              other.prefixLength ≤ route.prefixLength) ∧
      (lookupL3TransmitPort (buildL3Routes inetPton rs l3) metadata = none ↔
        ∀ route ∈ l3.ipv4Routes,
          ¬ route.Contains inetPton (rteBeToCpu32 metadata.destinationIpBe)) := by
  refine ⟨fun route hroute ↦ ?_, fun port h ↦ ?_, ?_⟩
  · obtain ⟨index, hindex⟩ := hvalid route hroute
    exact Ipv4Route.exists_block_of_valid hindex
  · obtain ⟨entry, hfind, rfl⟩ := Option.map_eq_some_iff.mp h
    obtain ⟨hmem, hhit, hmax⟩ := Lib.find?_descending pairwise_buildL3Routes hfind
    obtain ⟨route, hroute, hentry⟩ := mem_buildL3Routes.mp hmem
    obtain ⟨-, -, -, -, hlength, hport⟩ := Ipv4Route.l3RouteEntry_eq_some hentry
    refine ⟨route, hroute, hport.symm,
      (Ipv4Route.test_l3RouteEntry hentry _).mp (of_decide_eq_true hhit),
      fun other hother hin ↦ ?_⟩
    obtain ⟨entry', hentry'⟩ := hin.exists_entry
    obtain ⟨-, -, -, -, hlength', -⟩ := Ipv4Route.l3RouteEntry_eq_some hentry'
    rw [← hlength, ← hlength']
    exact hmax entry' (mem_buildL3Routes.mpr ⟨other, hother, hentry'⟩)
      (decide_eq_true ((Ipv4Route.test_l3RouteEntry hentry' _).mpr hin))
  · rw [lookupL3TransmitPort, Option.map_eq_none_iff, List.find?_eq_none]
    constructor
    · intro hnone route hroute hin
      obtain ⟨entry, hentry⟩ := hin.exists_entry
      exact hnone entry (mem_buildL3Routes.mpr ⟨route, hroute, hentry⟩)
        (decide_eq_true ((Ipv4Route.test_l3RouteEntry hentry _).mpr hin))
    · intro hnone entry hentry hhit
      obtain ⟨route, hroute, hentry⟩ := mem_buildL3Routes.mp hentry
      exact hnone route hroute
        ((Ipv4Route.test_l3RouteEntry hentry _).mp (of_decide_eq_true hhit))

/-- A route inside another one, with host bits in its address. -/
def nestedRoutes : L3ForwardConfig where
  enabled := true
  ipv4Routes :=
    [{ destinationIpAddress := "10.0.0.0", prefixLength := 8, outputPort := 1 },
      { destinationIpAddress := "10.1.2.3", prefixLength := 16, outputPort := 2 }]

/-- `inet_pton` on the addresses of the routes. -/
def nestedAddresses : InetPton := fun text ↦
  if text = "10.0.0.0" then some 0x0000000A
  else if text = "10.1.2.3" then some 0x0302010A
  else none

/-- A packet to 10.1.0.9. -/
def nestedPacket : PacketMetadata := { destinationIpBe := 0x0900010A }

/-- The packet leaves by the longer prefix, which is behind the shorter one in the
configuration. -/
theorem lookupL3TransmitPort_longest_nested :
    ∃ route ∈ nestedRoutes.ipv4Routes, route.outputPort = 2 ∧
      route.Contains nestedAddresses (rteBeToCpu32 nestedPacket.destinationIpBe) ∧
      ∀ other ∈ nestedRoutes.ipv4Routes,
        other.Contains nestedAddresses (rteBeToCpu32 nestedPacket.destinationIpBe) →
          other.prefixLength ≤ route.prefixLength := by
  have hlookup : lookupL3TransmitPort
      (buildL3Routes nestedAddresses insertionRouteSort nestedRoutes) nestedPacket = some 2 := by
    decide +kernel
  refine (lookupL3TransmitPort_longest nestedAddresses insertionRouteSort nestedRoutes
    (fun route hroute ↦ ⟨0, ?_⟩) nestedPacket).2.1 2 hlookup
  have hall : ∀ route ∈ nestedRoutes.ipv4Routes,
      validateL3Ipv4Route nestedAddresses route 0 = .ok () := by decide +kernel
  exact hall route hroute

end DpdkSpi
