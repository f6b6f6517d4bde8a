import EasyStressTest.Simulation

/-!
All tasks together. `Good` ties the two containers, the id counter and the lives of all nodes
to each other. `Advance` is one step of the program seen from all nodes, and an event about one
task is such a step.
-/

namespace EasyStressTest.Population
open Define HttpTask Options Tasks Libuv Callbacks Loop Execution Lifecycle Simulation

structure Life (n : Nat) (view : View) : Prop where
  routed : Routed n view.task
  control : Control view.task
  counted : Counted view.task
  placed : Placed view

section
variable {sizeBits : Nat} {http : Bool} {n : Nat} {event : Event} {before after : View}

theorem Life.newborn (id : UInt64) (addr : SockaddrIn) : Life n (newborn http n id addr) where
  routed := Routed.fresh id addr
  control := Control.fresh id addr
  counted := Counted.fresh id addr
  placed := Placed.newborn id addr

theorem Life.step (life : Life n before) (taken : LifeStep sizeBits http n event before after) :
    Life n after where
  routed := life.routed.step taken
  control := life.control.step taken
  counted := life.counted.step life.control taken
  placed := life.placed.step life.control taken

end

structure Good (info : MainInfo) : Prop where
  counter : info.tasks.curId = UInt64.ofNat info.nodes
  ids : ∀ n < info.nodes, (info.heap n).id = UInt64.ofNat (n + 1)
  keyed : ∀ key n, info.tasks.find key = some n → n < info.nodes ∧ (info.heap n).id = key
  entries : ∀ node ∈ info.tasks.toDeleteTaskList, node.ptask < info.nodes
  logged : ∀ entry ∈ info.log, entry.1 < info.nodes
  lives : ∀ n < info.nodes, Life n (view info n)

theorem Good.initial : Good MainInfo.initial where
  counter := rfl
  ids := by simp [MainInfo.initial]
  keyed := by simp [MainInfo.initial, CTasks.find]
  entries := by simp [MainInfo.initial]
  logged := by simp [MainInfo.initial]
  lives := by simp [MainInfo.initial]

/-- One step of the program, seen from every node. -/
structure Advance (platform : Platform) (config : MainConfig) (event : Event)
    (info next : MainInfo) : Prop where
  grown : info.nodes ≤ next.nodes
  lived : ∀ n < info.nodes,
    LifeStep platform.sizeBits (builtin config) n event (view info n) (view next n)
  born : ∀ n, info.nodes ≤ n → n < next.nodes →
    ∃ addr, view next n = newborn (builtin config) n (UInt64.ofNat (n + 1)) addr
  good : Good next

section
variable {platform : Platform} {config : MainConfig} {info next : MainInfo}

theorem frame_good {p : Nat} (frame : Frame p info next) (good : Good info) (bound : p < info.nodes)
    (life : Life p (view next p)) : Good next where
  counter := by
    rw [frame.curId, frame.nodes]
    exact good.counter
  ids := by
    intro n before
    rw [frame.nodes] at before
    rw [frame.sameId]
    exact good.ids n before
  keyed := by
    intro key n found
    rw [frame.nodes, frame.sameId]
    have earlier : info.tasks.find key = some n := by
      rw [CTasks.find, frame.taskList] at found
      exact found
    exact good.keyed key n earlier
  entries := by
    intro node member
    rw [frame.nodes]
    rcases frame.entries node member with old | fresh
    · exact good.entries node old
    · omega
  logged := by
    intro entry member
    rw [frame.nodes]
    rcases frame.logged entry member with old | fresh
    · exact good.logged entry old
    · omega
  lives := by
    intro n before
    rw [frame.nodes] at before
    by_cases self : n = p
    · subst self
      exact life
    · rw [frame.apart n self]
      exact good.lives n before

theorem target_bound {event : Event} {p : Nat} (about : target event = some p)
    (allowed : enabled info event = true) : p < info.nodes := by
  cases event <;> simp_all [target, enabled]

theorem target_not_walk {event : Event} {p : Nat} (about : target event = some p) : event ≠ .walk := by
  intro walk
  subst walk
  cases about

theorem target_advance {event : Event} {p : Nat} (good : Good info) (about : target event = some p)
    (allowed : enabled info event = true) (taken : exec platform config info event = some next) :
    Advance platform config event info next := by
  have bound := target_bound about allowed
  have own := good.lives p bound
  have step := target_local about own.routed allowed taken
  refine ⟨by rw [step.frame.nodes], ?_, ?_, frame_good step.frame good bound (own.step step.life)⟩
  · intro n before
    by_cases self : n = p
    · subst self
      exact step.life
    · rw [step.frame.apart n self]
      refine LifeStep.other ?_ (target_not_walk about)
      rw [about]
      intro same
      exact self (Option.some.inj same).symm
  · intro n after before
    rw [step.frame.nodes] at before
    omega

end

end EasyStressTest.Population
