import EvertyDesk.Client.FrameAssembly
import EvertyDesk.Client.ReassemblerSteps

/-!
The order in which frames are delivered. A completed frame is forgotten, and packets of
it may open it again; that it is not completed again rests on the comparison with the
last completed frame, which every call makes that can complete a frame.
-/

namespace EvertyDesk.Reassembler

open ChannelReassembler

/-- The numbers of the frames that the calls deliver, from this state on. -/
def deliveredIds (iter : IterOrder Nat) (r : ChannelReassembler) (ops : List Op) : List Nat :=
  (((machine iter).outputs r ops).filterMap id).map Delivery.frameId

/-- Unfinished frames are stored under their numbers. -/
def FiledByNumber (r : ChannelReassembler) : Prop :=
  ∀ id a, r.frames.lookup id = some a → a.frameId = id

/-- Every number up to the last completed one is done with. -/
def DoneUpTo (completed : Option Nat) (id : Nat) : Prop := ∃ last, completed = some last ∧ id ≤ last

/-- What a call may complete: nothing, or one frame that is not done with, and this frame
alone may be delivered. -/
structure Completes (r r' : ChannelReassembler) (out : Option Delivery) : Prop where
  filed : FiledByNumber r'
  completed : (out = none ∧ r'.latestCompletedId = r.latestCompletedId) ∨
    ∃ id, ¬ DoneUpTo r.latestCompletedId id ∧ r'.latestCompletedId = some id ∧
      ∀ delivery, out = some delivery → delivery.frameId = id

theorem not_done_of_wanted {r : ChannelReassembler} {id : Nat}
    (h : r.alreadyCompleted id = false) : ¬ DoneUpTo r.latestCompletedId id := by
  rintro ⟨last, hlast, hle⟩
  simp [alreadyCompleted, hlast] at h
  omega

private theorem recoverable_filed : Recoverable (fun id a => a.frameId = id) (fun _ _ => True) := by
  intro id a fec index bytes a' hfiled _ _ hset
  exact (a.set_header hset).1.trans hfiled

theorem completes_of_outcome {r r' : ChannelReassembler} {id now : Nat}
    {out : Option Delivery} (hwanted : r.alreadyCompleted id = false)
    (hholds : Holds (fun id a => a.frameId = id) (fun _ _ => True) r')
    (houtcome : Outcome (fun id a => a.frameId = id) r id now r' out) :
    Completes r r' out := by
  refine ⟨hholds.frames, ?_⟩
  rcases houtcome with ⟨hnone, hsame⟩ | ⟨a, last, hfiled, -, -, -, hcompleted, hfinish⟩
  · exact .inl ⟨hnone, hsame.completed⟩
  · refine .inr ⟨id, not_done_of_wanted hwanted, hcompleted.trans (congrArg some hfiled), ?_⟩
    rintro delivery rfl
    cases hfinish <;> rfl

theorem completes_of_shrinks {r r' : ChannelReassembler} {seen : Option Nat}
    (h : FiledByNumber r) (hshrinks : Shrinks { r with latestFrameIdSeen := seen } r') :
    Completes r r' none where
  filed id a hlookup := h id a (hshrinks.frames id a hlookup)
  completed := .inl ⟨rfl, hshrinks.completed⟩

theorem onPacket_completes (iter : IterOrder Nat) {r : ChannelReassembler}
    (h : FiledByNumber r) (pkt : Evrt.EvrtPacket) (now : Nat) :
    Completes r (r.onPacket iter pkt now).1 (r.onPacket iter pkt now).2 := by
  rcases r.onPacket_cases iter pkt now with
    ⟨r', seen, hresult, hshrinks⟩ | ⟨opened, hresult, -, hopens⟩
  · rw [hresult]
    exact completes_of_shrinks h hshrinks
  · obtain ⟨seen, hshrinks⟩ := hopens.shrinks
    have hwanted : opened.alreadyCompleted pkt.frameId = false := by
      rw [alreadyCompleted, hshrinks.completed]
      exact hopens.wanted
    have hholds : Holds (fun id a => a.frameId = id) (fun _ _ => True) opened :=
      ⟨fun id a hlookup => h id a (hshrinks.frames id a hlookup), fun _ _ _ _ _ => trivial⟩
    have haccepts : Accepts (fun id a => a.frameId = id) opened pkt now :=
      ⟨fun _ => rfl, fun a a' hfiled _ hset => (a.set_header hset).1.trans hfiled⟩
    obtain ⟨hdone, houtcome⟩ := assemble_holds recoverable_filed hholds haccepts
    obtain ⟨hfiled, hcompleted⟩ := completes_of_outcome hwanted hdone houtcome
    rw [hresult]
    refine ⟨hfiled, ?_⟩
    rwa [hshrinks.completed] at hcompleted

theorem onFecPacket_completes {r : ChannelReassembler} (h : FiledByNumber r)
    (pkt : Evrt.EvrtPacket) (now : Nat) :
    Completes r (r.onFecPacket pkt now).1 (r.onFecPacket pkt now).2 := by
  have hholds : Holds (fun id a => a.frameId = id) (fun _ _ => True) r :=
    ⟨h, fun _ _ _ _ _ => trivial⟩
  rcases onFecPacket_holds recoverable_filed hholds pkt now (fun _ _ => trivial) with
    hsame | ⟨hwanted, hdone, houtcome⟩
  · rw [hsame]
    exact ⟨h, .inl ⟨rfl, rfl⟩⟩
  · exact completes_of_outcome hwanted hdone houtcome

theorem step_completes (iter : IterOrder Nat) {r : ChannelReassembler} (h : FiledByNumber r)
    {op : Op} (hop : op ≠ .reset) :
    Completes r ((machine iter).step r op).1 ((machine iter).step r op).2 := by
  cases op with
  | packet pkt now => exact onPacket_completes iter h pkt now
  | fecPacket pkt now => exact onFecPacket_completes h pkt now
  | setCodecConfig payload => exact ⟨h, .inl ⟨rfl, rfl⟩⟩
  | reset => exact absurd rfl hop

theorem run_filed (iter : IterOrder Nat) (ops : List Op) :
    FiledByNumber ((machine iter).run .new ops) := by
  refine (machine iter).invariant (C := fun _ _ => True) ?_ ?_
    ((machine iter).along_of_forall (fun _ _ => trivial) _ _)
  · intro r op h _
    cases op with
    | reset =>
        intro id a hlookup
        simp [machine, reset] at hlookup
    | _ => exact (step_completes iter h (by simp)).filed
  · intro id a hlookup
    simp [ChannelReassembler.new] at hlookup

/-- Without a reset only frames that are not done with are delivered, each later than the
ones before it. -/
theorem increasing_from (iter : IterOrder Nat) {r : ChannelReassembler} (h : FiledByNumber r)
    {ops : List Op} (hops : ∀ op ∈ ops, op ≠ .reset) :
    (deliveredIds iter r ops).Pairwise (· < ·) ∧
      ∀ id ∈ deliveredIds iter r ops, ¬ DoneUpTo r.latestCompletedId id := by
  induction ops generalizing r with
  | nil => exact ⟨List.Pairwise.nil, by simp [deliveredIds]⟩
  | cons op ops ih =>
      obtain ⟨hfiled, hcompleted⟩ := step_completes iter h (hops op List.mem_cons_self)
      obtain ⟨hincreasing, hfresh⟩ := ih hfiled fun op hop =>
        hops op (List.mem_cons_of_mem _ hop)
      rcases hcompleted with ⟨hnone, hsame⟩ | ⟨id, hwanted, hlast, hout⟩
      · have hids : deliveredIds iter r (op :: ops) =
            deliveredIds iter ((machine iter).step r op).1 ops := by
          simp [deliveredIds, hnone]
        rw [hids]
        exact ⟨hincreasing, fun id hid => hsame ▸ hfresh id hid⟩
      · have hlater : ∀ other ∈ deliveredIds iter ((machine iter).step r op).1 ops, id < other := by
          intro other hother
          by_contra hle
          exact hfresh other hother ⟨id, hlast, Nat.le_of_not_lt hle⟩
        have hstill : ∀ other ∈ deliveredIds iter ((machine iter).step r op).1 ops,
            ¬ DoneUpTo r.latestCompletedId other := by
          rintro other hother ⟨last, heq, hle⟩
          exact hwanted ⟨last, heq, (hlater other hother).le.trans hle⟩
        cases hdelivery : ((machine iter).step r op).2 with
        | none =>
            have hids : deliveredIds iter r (op :: ops) =
                deliveredIds iter ((machine iter).step r op).1 ops := by
              simp [deliveredIds, hdelivery]
            rw [hids]
            exact ⟨hincreasing, hstill⟩
        | some delivery =>
            have hids : deliveredIds iter r (op :: ops) =
                id :: deliveredIds iter ((machine iter).step r op).1 ops := by
              simp [deliveredIds, hdelivery, hout delivery hdelivery]
            rw [hids]
            refine ⟨List.Pairwise.cons hlater hincreasing, ?_⟩
            intro other hother
            rcases List.mem_cons.mp hother with rfl | hother
            · exact hwanted
            · exact hstill other hother

/-- Between two resets the frames are delivered in the order of their numbers, none of
them twice. -/
theorem delivered_in_increasing_order (iter : IterOrder Nat) (before between : List Op)
    (hbetween : ∀ op ∈ between, op ≠ .reset) :
    (deliveredIds iter ((machine iter).run .new before) between).Pairwise (· < ·) :=
  (increasing_from iter (run_filed iter before) hbetween).1

private def onePiecePacket (frameId : Nat) (isKeyFrame : Bool) (h : frameId < 2 ^ 32) :
    Evrt.EvrtPacket where
  packetType := Evrt.typeVideoFrame
  flags := Evrt.frameFlags isKeyFrame
  frameId := frameId
  packetIndex := 0
  packetCount := 1
  presentationTimeUs := 0
  payload := [0]
  frameId_lt := h

/-- After a reset the numbers start again; both frames come twice, the key frame late. -/
theorem delivered_in_increasing_order_duplicates :
    let before : List Op := [.packet (onePiecePacket 7 true (by decide)) 0, .reset]
    let between : List Op := [.packet (onePiecePacket 1 true (by decide)) 0,
      .packet (onePiecePacket 2 false (by decide)) 0,
      .packet (onePiecePacket 1 true (by decide)) 0,
      .packet (onePiecePacket 2 false (by decide)) 0]
    (∀ op ∈ between, op ≠ .reset) ∧
      deliveredIds (.stored Nat) ((machine (.stored Nat)).run .new before) between = [1, 2] ∧
      (deliveredIds (.stored Nat) ((machine (.stored Nat)).run .new before)
        between).Pairwise (· < ·) := by
  intro before between
  have hbetween : ∀ op ∈ between, op ≠ .reset := by
    intro op hop
    simp only [between, List.mem_cons, List.not_mem_nil, or_false] at hop
    rcases hop with rfl | rfl | rfl | rfl <;> exact Op.noConfusion
  exact ⟨hbetween, by decide, delivered_in_increasing_order _ before between hbetween⟩

end EvertyDesk.Reassembler
