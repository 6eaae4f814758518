import EvertyDesk.Lib.Machine
import Mathlib.Algebra.BigOperators.Group.List.Basic
import Mathlib.Algebra.Order.Ring.Nat

/-!
The pacing of a session's datagrams. Four go out as they are given, the next four not before
the time of the ones before; a pacer that is more than 50 ms behind starts anew.

Times are nanoseconds. A datagram that does not wait is sent when it is given.
-/

namespace EvertyDesk.EvrtSession

def pacerBurstPackets : Nat := 4
def pacerMaxLag : Nat := 50000000

def wireBps (targetBps : Nat) : Nat := max (max targetBps 1 * 120 / 100) 1

/-- Datagrams are far too short for the products to saturate. -/
def packetSpacing (bytes targetBps : Nat) : Nat :=
  max (bytes * 8 * 1000000000 / wireBps targetBps) 1

example : packetSpacing 1200 12000000 = 666666 := by decide

/-- When the last datagram was sent is a ghost. -/
structure UdpPacer where
  nextSendAt : Nat
  packetsInBurst : Nat
  sentAt : Nat

/-- A datagram, when it is given, and how long a wait for it goes on after its end. -/
structure PacedSend where
  bytes : Nat
  targetBps : Nat
  now : Nat
  late : Nat

def PacedSend.spacing (d : PacedSend) : Nat := packetSpacing d.bytes d.targetBps

namespace UdpPacer

def new (now : Nat) : UdpPacer := ⟨now, 0, now⟩

variable (p : UdpPacer) (d : PacedSend)

def send : UdpPacer where
  nextSendAt := (if p.packetsInBurst = 0 ∧ p.nextSendAt + pacerMaxLag < d.now then d.now
    else p.nextSendAt) + d.spacing
  packetsInBurst := (p.packetsInBurst + 1) % pacerBurstPackets
  sentAt := if p.packetsInBurst = 0 ∧ d.now < p.nextSendAt then p.nextSendAt + d.late else d.now

/-- How many datagrams of the last burst are out. -/
def burst : Nat := if p.packetsInBurst = 0 then pacerBurstPackets else p.packetsInBurst

end UdpPacer

def udpPacer : Machine UdpPacer PacedSend Unit where
  step p d := (p.send d, ())

/-- The clock goes on. -/
def InOrder (p : UdpPacer) (d : PacedSend) : Prop := p.sentAt ≤ d.now

instance (p : UdpPacer) (d : PacedSend) : Decidable (InOrder p d) := Nat.decLe p.sentAt d.now

section Pacing

variable {p : UdpPacer} {d : PacedSend} {most : Nat}

/-- The time of the next burst is not further off than the last burst takes. -/
structure UdpPacer.OnTime (most : Nat) (p : UdpPacer) : Prop where
  place : p.packetsInBurst < pacerBurstPackets
  next : p.nextSendAt ≤ p.sentAt + p.burst * most

theorem onTime_new (now most : Nat) : (UdpPacer.new now).OnTime most :=
  ⟨show 0 < 4 by decide, Nat.le_add_right now _⟩

theorem UdpPacer.OnTime.burst_le (h : p.OnTime most) : p.burst * most ≤ 4 * most := by
  apply Nat.mul_le_mul_right
  have hplace := h.place
  unfold UdpPacer.burst
  unfold pacerBurstPackets at *
  split <;> omega

theorem burst_send (h : p.packetsInBurst < pacerBurstPackets) :
    (p.send d).burst = p.packetsInBurst + 1 := by
  have hplace : p.packetsInBurst < 4 := h
  change (if (p.packetsInBurst + 1) % 4 = 0 then 4 else (p.packetsInBurst + 1) % 4) = _
  split <;> omega

theorem onTime_send (h : p.OnTime most) (hclock : InOrder p d) (hmost : d.spacing ≤ most) :
    (p.send d).OnTime most := by
  refine ⟨Nat.mod_lt _ (by decide), ?_⟩
  rw [burst_send h.place, Nat.succ_mul]
  have hnext := h.next
  unfold InOrder at hclock
  simp only [UdpPacer.send]
  by_cases hfirst : p.packetsInBurst = 0
  · -- the first of a burst is not sent before its time
    simp only [hfirst, true_and, Nat.zero_mul]
    split <;> split <;> omega
  · rw [UdpPacer.burst, if_neg hfirst] at hnext
    simp only [hfirst, false_and, if_false]
    omega

/-- What was spent since `start`: the rest of a burst, or what the time since then and the
lag allow. -/
def Spent (most start cost : Nat) (p : UdpPacer) : Prop :=
  cost + most ≤ p.burst * most ∨ start + cost ≤ p.nextSendAt + pacerMaxLag + 3 * most

theorem spent_zero (p : UdpPacer) (most start : Nat) : Spent most start 0 p := by
  have hburst : 1 ≤ p.burst := by
    unfold UdpPacer.burst
    split
    · decide
    · omega
  exact .inl (by simpa using Nat.mul_le_mul_right most hburst)

theorem spent_send {start cost : Nat} (h : Spent most start cost p)
    (hplace : p.packetsInBurst < pacerBurstPackets) (hmost : d.spacing ≤ most)
    (hstart : start ≤ d.now) : Spent most start (cost + d.spacing) (p.send d) := by
  unfold Spent at *
  rw [burst_send hplace, Nat.succ_mul]
  by_cases hfirst : p.packetsInBurst = 0
  · refine .inr ?_
    simp only [UdpPacer.send, hfirst, true_and]
    rw [UdpPacer.burst, if_pos hfirst] at h
    unfold pacerBurstPackets at h
    split <;> omega
  · rw [UdpPacer.burst, if_neg hfirst] at h
    obtain h | h := h
    · exact .inl (by omega)
    · refine .inr ?_
      simp only [UdpPacer.send, hfirst, false_and, if_false]
      omega

theorem spent_run {start cost : Nat} {sends : List PacedSend} (h : p.OnTime most)
    (hspent : Spent most start cost p) (hclock : udpPacer.Along InOrder p sends)
    (hmost : ∀ d ∈ sends, d.spacing ≤ most) (hstart : ∀ d ∈ sends, start ≤ d.now) :
    (udpPacer.run p sends).OnTime most ∧
      Spent most start (cost + (sends.map PacedSend.spacing).sum) (udpPacer.run p sends) := by
  induction sends generalizing p cost with
  | nil => exact ⟨h, hspent⟩
  | cons d sends ih =>
      have hd := hmost d List.mem_cons_self
      rw [List.map_cons, List.sum_cons, ← Nat.add_assoc]
      exact ih (onTime_send h hclock.1 hd)
        (spent_send hspent h.place hd (hstart d List.mem_cons_self)) hclock.2
        (fun next hnext => hmost next (List.mem_cons_of_mem d hnext))
        (fun next hnext => hstart next (List.mem_cons_of_mem d hnext))

theorem wireBps_mono {slow fast : Nat} (h : slow ≤ fast) : wireBps slow ≤ wireBps fast := by
  unfold wireBps
  omega

/-- The bits of a datagram take its spacing at the rate of the wire, but for a nanosecond. -/
theorem bits_le {bps : Nat} (h : d.targetBps ≤ bps) :
    d.bytes * 8 * 1000000000 ≤ wireBps bps * (d.spacing + 1) := by
  have hpos : 0 < wireBps d.targetBps := Nat.lt_of_lt_of_le Nat.one_pos (Nat.le_max_right _ _)
  have hdiv := (Nat.lt_mul_div_succ (d.bytes * 8 * 1000000000) hpos).le
  refine hdiv.trans (Nat.mul_le_mul (wireBps_mono h) ?_)
  exact Nat.succ_le_succ (Nat.le_max_left _ _)

theorem sum_bits_le {bps : Nat} {sends : List PacedSend} (h : ∀ d ∈ sends, d.targetBps ≤ bps) :
    (sends.map PacedSend.bytes).sum * 8 * 1000000000 ≤
      wireBps bps * ((sends.map PacedSend.spacing).sum + sends.length) := by
  induction sends with
  | nil => simp
  | cons d sends ih =>
      have hd := bits_le (h d List.mem_cons_self)
      have hrest := ih fun next hnext => h next (List.mem_cons_of_mem d hnext)
      simp only [List.map_cons, List.sum_cons, List.length_cons]
      calc (d.bytes + (sends.map PacedSend.bytes).sum) * 8 * 1000000000
          = d.bytes * 8 * 1000000000 + (sends.map PacedSend.bytes).sum * 8 * 1000000000 := by omega
        _ ≤ wireBps bps * (d.spacing + 1) +
            wireBps bps * ((sends.map PacedSend.spacing).sum + sends.length) :=
          Nat.add_le_add hd hrest
        _ = wireBps bps * (d.spacing + (sends.map PacedSend.spacing).sum + (sends.length + 1)) := by
          rw [← Nat.mul_add]
          exact congrArg (wireBps bps * ·) (by omega)

end Pacing

/-- In every stretch of every run, the datagrams that are given since `start` and sent by
`finish` are no more bits than the wire's rate gives in that time, in the lag that is made
up for and in the spacings of seven datagrams. -/
theorem rate_bounded (begun : Nat) (before during : List PacedSend) {start finish bps most : Nat}
    (hclock : udpPacer.Along InOrder (.new begun) (before ++ during))
    (hmost : ∀ d ∈ before ++ during, d.spacing ≤ most) (hbps : ∀ d ∈ during, d.targetBps ≤ bps)
    (hstart : ∀ d ∈ during, start ≤ d.now) (hle : start ≤ finish)
    (hfinish : (udpPacer.run (.new begun) (before ++ during)).sentAt ≤ finish) :
    (during.map PacedSend.bytes).sum * 8 * 1000000000 ≤
      wireBps bps * (finish - start + pacerMaxLag + 7 * most + during.length) := by
  obtain ⟨hfirst, hlast⟩ := (udpPacer.along_append _ _ _ _).mp hclock
  have hready : (udpPacer.run (.new begun) before).OnTime most :=
    (spent_run (onTime_new begun most) (spent_zero _ most 0) hfirst
      (fun d hd => hmost d (List.mem_append_left _ hd)) fun _ _ => Nat.zero_le _).1
  obtain ⟨htime, hspent⟩ := spent_run hready (spent_zero _ most start) hlast
    (fun d hd => hmost d (List.mem_append_right _ hd)) hstart
  rw [Machine.run_append] at hfinish
  rw [Nat.zero_add] at hspent
  have hnext := htime.next
  have hburst := htime.burst_le
  refine (sum_bits_le hbps).trans (Nat.mul_le_mul_left _ (Nat.add_le_add_right ?_ _))
  obtain hspent | hspent := hspent <;> omega

/-- A full datagram every millisecond, at 12 Mbit/s. -/
def everyMillisecond (n : Nat) : PacedSend := ⟨1200, 12000000, 1000000 * n, 0⟩

theorem rate_bounded_five :
    (([2, 3, 4].map everyMillisecond).map PacedSend.bytes).sum * 8 * 1000000000 ≤
      wireBps 12000000 * (4000000 - 2000000 + pacerMaxLag + 7 * 666666 + 3) :=
  rate_bounded 0 ([0, 1].map everyMillisecond) ([2, 3, 4].map everyMillisecond)
    ⟨by decide, by decide, by decide, by decide, by decide, trivial⟩
    (by decide) (by decide) (by decide) (by decide) (by decide)

end EvertyDesk.EvrtSession
