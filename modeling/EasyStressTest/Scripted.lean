import EasyStressTest.Protocol
import EasyStressTest.TaskStore

/-!
Sessions with a script. `init` relocates it and installs no callback from it, so a task only connects and
reads, until the peer ends the connection.
-/

namespace EasyStressTest.Scripted
open Define HttpTask Options Tasks Libuv Callbacks Loop Execution Lifecycle Simulation Population
open Sweep Reachability Protocol TaskStore

/-- No callback was made, no reply data constructed, nothing written, and `do_close` not called. -/
structure Mute (view : View) : Prop where
  uncalled : callbacks view.acts = []
  unconstructed : view.task.reversed = none
  unwritten : ReqKind.write ∉ view.task.connectReq.submitted
  kept : view.task.deleteImmediately = false

section
variable {sizeBits : Nat} {n : Nat} {event : Event} {before after view : View}

theorem Mute.newborn (id : UInt64) (addr : SockaddrIn) : Mute (newborn false n id addr) where
  uncalled := rfl
  unconstructed := rfl
  unwritten := List.not_mem_nil
  kept := rfl

theorem callbacks_silent {acts more : List Act} (none : callbacks acts = []) (silent : callbacks more = []) :
    callbacks (acts ++ more) = [] := by
  unfold callbacks at none silent ⊢
  rw [List.filterMap_append, none, silent]
  rfl

/-- A completed request, and a handle that may be closing now. -/
theorem Mute.completes (mute : Mute view) (kind : ReqKind) : ReqKind.write ∉ (complete view.task kind).connectReq.submitted :=
  fun write => mute.unwritten (List.mem_of_mem_erase write)

theorem Mute.step (mute : Mute before) (taken : LifeStep sizeBits false n event before after) : Mute after := by
  have same := mute
  obtain ⟨uncalled, unconstructed, unwritten, kept⟩ := mute
  cases taken with
  | other => exact same
  | erase => exact ⟨callbacks_silent uncalled rfl, unconstructed, unwritten, kept⟩
  | walkOpen => exact ⟨callbacks_silent uncalled rfl, unconstructed, unwritten, kept⟩
  | walkOther => exact ⟨uncalled, unconstructed, unwritten, kept⟩
  | workInit => exact ⟨uncalled, unconstructed, unwritten, kept⟩
  | @workConnect _ r =>
    refine ⟨uncalled, by simpa using unconstructed, ?_, by simpa using kept⟩
    by_cases accepted : r = 0
    · rw [submit_accepted _ _ _ accepted]
      simpa using unwritten
    · rw [submit_refused _ _ _ accepted]
      exact unwritten
  | workReturn => exact ⟨uncalled, unconstructed, unwritten, kept⟩
  | afterWork => exact ⟨uncalled, unconstructed, unwritten, kept⟩
  | connectOk submitted unclosed code http => cases http
  | connectBare => exact ⟨uncalled, unconstructed, same.completes .connect, kept⟩
  | connectFail =>
    exact ⟨callbacks_silent (callbacks_silent uncalled rfl) rfl, unconstructed, same.completes .connect, kept⟩
  | connectCancelled => exact ⟨callbacks_silent uncalled rfl, unconstructed, same.completes .connect, kept⟩
  | readNone => exact same
  | readError => exact ⟨callbacks_silent uncalled rfl, unconstructed, unwritten, kept⟩
  | readMore reading http => cases http
  | readEnd reading http => cases http
  | readBare => exact same
  | writeOk submitted => exact absurd submitted unwritten
  | writeError failed submitted => exact absurd submitted unwritten
  | writeCancelled failed submitted => exact absurd submitted unwritten
  | readRetired => exact ⟨uncalled, unconstructed, unwritten, kept⟩
  | closedQuiet => exact ⟨uncalled, unconstructed, unwritten, kept⟩
  | closedNotify => exact ⟨callbacks_silent uncalled rfl, unconstructed, unwritten, kept⟩

end

section
variable {platform : Platform} {config : MainConfig} {info next : MainInfo} {now : Int}

theorem reachable_mute (script : builtin config = false) (reached : Reachable platform config info) :
    ∀ n < info.nodes, Mute (view info n) := by
  have born : ∀ n id addr, Mute (newborn (builtin config) n id addr) := by
    intro n id addr
    rw [script]
    exact Mute.newborn id addr
  have kept : ∀ n event before after, Life n before → Mute before →
      LifeStep platform.sizeBits (builtin config) n event before after → Mute after := by
    intro n event before after _ mute taken
    rw [script] at taken
    exact mute.step taken
  exact reachable_lives born kept reached

/-- With a script, no task ever makes a callback, gets reply data, writes, or is closed by `do_close`. -/
theorem scripted_mute (script : builtin config = false) (reached : Reachable platform config info) :
    ∀ n < info.nodes,
      (∀ callback, (n, Act.callback callback) ∉ info.log) ∧ (info.heap n).reversed = none ∧
        ReqKind.write ∉ (info.heap n).connectReq.submitted ∧ (info.heap n).deleteImmediately = false := by
  intro n bound
  have mute := reachable_mute script reached n bound
  refine ⟨fun callback called => ?_, mute.unconstructed, mute.unwritten, mute.kept⟩
  have mine : Act.callback callback ∈ (view info n).acts := mem_actsOf.mpr called
  have listed : callback ∈ callbacks (view info n).acts := List.mem_filterMap.mpr ⟨_, mine, rfl⟩
  rw [mute.uncalled] at listed
  cases listed

/-- A configuration with a script, and a task that has received a page and the end of the connection. -/
def scriptConfig : MainConfig := { mainConfig with scriptFile := "http.c".toList, libpath := "tcc".toList }

def readToEnd : List Event :=
  [.tick fun _ => none, .workInit 0, .workConnect 0 0, .workReturn 0, .afterWork 0, .connected 0 0 0 0,
    .readData 0 (bytes "</html>\r\n\r\n"), .readError 0 uvEof, .readRetired 0, .closed 0 5]

theorem scripted_mute_read :
    ∃ info, session ⟨64, 32⟩ scriptConfig (fun _ => none) readToEnd = some info ∧ 0 < info.nodes ∧
      (∀ callback, (0, Act.callback callback) ∉ info.log) ∧ (info.heap 0).reversed = none ∧
        ReqKind.write ∉ (info.heap 0).connectReq.submitted ∧ (info.heap 0).deleteImmediately = false := by
  obtain ⟨info, ran, bound⟩ : ∃ info, session ⟨64, 32⟩ scriptConfig (fun _ => none) readToEnd = some info ∧
      0 < info.nodes := ⟨_, rfl, by decide⟩
  exact ⟨info, ran, bound, scripted_mute (by decide) ⟨_, _, ran⟩ 0 bound⟩

end

end EasyStressTest.Scripted
