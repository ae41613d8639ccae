import Ratputer.Lemmas.Serial
import Ratputer.Ram
import Mathlib.Computability.StateTransition

/-!
# SFTP is independent of packetisation and scheduling

Every schedule is a run of the serial server on the stream it feeds. A schedule that has run dry is a maximal run, and a
deterministic machine has one end.
-/

namespace Ratputer

variable {V : Type} {F : Fat V}

namespace Sftp

/-- The session after a schedule, on a volume mounted from the start. -/
def after (F : Fat V) (volume : V) (es : List Event) : Sftp F := Mealy.final serve (new volume) es

/-- What the driver of the session saw in a schedule. -/
def seen (F : Fat V) (volume : V) (es : List Event) : List Seen := Mealy.outputs serve (new (F := F) volume) es

/-- A step of the event sees the volume mounted, and the clock `ctx`. -/
def Event.Mounted (ctx : Ctx) : Event → Prop
  | .step mounted c => mounted = true ∧ c = ctx
  | _ => True

instance (ctx : Ctx) : DecidablePred (Event.Mounted ctx)
  | .step _ _ => inferInstanceAs (Decidable (_ ∧ _))
  | .feed _ | .consume _ | .beginPoll => .isTrue trivial

/-- A schedule on one mounted volume ran until a step with a fresh card budget and drained output made no progress. -/
structure RanDry (F : Fat V) (volume : V) (ctx : Ctx) (es : List Event) : Prop where
  mounted : ∀ e ∈ es, e.Mounted ctx
  last : ∃ before, es = before ++ [.beginPoll, .step true ctx]
  drained : (after F volume es).output = []
  no_progress : (seen F volume es).getLast? = some { progress := false }

namespace ScheduleAux

/-- The last step of a schedule that ran dry is the serial server's last. -/
theorem stuck {volume : V} {ctx : Ctx} {es : List Event} (h : RanDry F volume ctx es) (taken : List UInt8) :
    ((after F volume es).serial [] taken).step true ctx = none := by
  obtain ⟨before, rfl⟩ := h.last
  have hafter : after F volume (before ++ [.beginPoll, .step true ctx]) =
      ((after F volume before).beginPoll.step true ctx).1 := by
    rw [after, Mealy.final_append]
    rfl
  have hsound : (after F volume before).beginPoll.Sound := by
    have hrun : (after F volume before).Sound :=
      Mealy.invariant (I := Sound) (G := fun _ _ => True) (fun s e hs _ => sound_serve hs e) (.inl rfl)
        (Mealy.along_of_forall (fun _ _ => trivial) _ _)
    exact hrun
  have hno : ((after F volume before).beginPoll.step true ctx).2 = false := by
    have hlast := h.no_progress
    rw [seen, Mealy.outputs_append] at hlast
    simp only [Mealy.outputs_cons, Mealy.outputs_nil, List.getLast?_append, List.getLast?_cons_cons] at hlast
    exact congrArg Seen.progress (Option.some.inj hlast)
  have hout : (after F volume before).beginPoll.server.out = [] := by
    by_contra hne
    have hstep : (after F volume before).beginPoll.step true ctx = ((after F volume before).beginPoll, false) := by
      rw [step, if_pos hne, ite_self]
    have hdrained := h.drained
    rw [hafter, hstep] at hdrained
    exact hne hdrained
  rw [hafter]
  exact stuck_of_no_progress hsound hout rfl hno taken

/-- Where a schedule that ran dry ends is the end of the serial server's run on its stream. -/
theorem ends {volume : V} {ctx : Ctx} {es : List Event} (h : RanDry F volume ctx es) :
    (after F volume es).serial [] (takenIn (seen F volume es)) ∈
      StateTransition.eval (Serial.step true ctx) (Serial.start (F := F) volume (fed es)) := by
  have hreach := serial_run (P := fun mounted c => mounted = true ∧ c = ctx) (fun _ _ hmem => h.mounted _ hmem)
    (.inl rfl : (new (F := F) volume).Sound) []
  have hmono : Serves (F := F) (fun mounted c => mounted = true ∧ c = ctx) ≤ fun x y => y ∈ Serial.step true ctx x := by
    rintro x y ⟨mounted, c, ⟨rfl, rfl⟩, hxy⟩
    exact hxy
  exact StateTransition.mem_eval.mpr ⟨Relation.ReflTransGen.mono hmono _ _ hreach, stuck h _⟩

end ScheduleAux

/-- Two schedules that feed one client stream, in whatever fragments, and run dry have sent the same bytes and left the same
world: volume, handle table and fatal flag. -/
theorem schedule_independent {volume : V} {ctx : Ctx} {es es' : List Event} (h : RanDry F volume ctx es)
    (h' : RanDry F volume ctx es') (hfed : fed es = fed es') :
    takenIn (seen F volume es) = takenIn (seen F volume es') ∧
      (after F volume es).toWorld = (after F volume es').toWorld := by
  have hends := ScheduleAux.ends h
  rw [hfed] at hends
  have heq := Part.mem_unique hends (ScheduleAux.ends h')
  have hclear : ∀ s : Sftp F, s.output = [] → s.toWorld.clear = s.toWorld := by
    intro s hs
    rw [World.clear, ← hs]
    rfl
  have hsent := congrArg Serial.sent heq
  have hworld := congrArg Serial.world heq
  have hd : (after F volume es).server.out = [] := h.drained
  have hd' : (after F volume es').server.out = [] := h'.drained
  simp only [serial, hd, hd', List.append_nil] at hsent
  simp only [serial, hclear _ h.drained, hclear _ h'.drained] at hworld
  exact ⟨hsent, hworld⟩

/-- INIT in one piece, and in two fragments with a step between them. -/
def initWhole : List Event := [.feed [0, 0, 0, 5, 1, 0, 0, 0, 3], .step true {}, .consume 200, .beginPoll, .step true {}]

def initSplit : List Event :=
  [.feed [0, 0], .step true {}, .feed [0, 5, 1, 0, 0, 0, 3], .step true {}, .consume 200, .beginPoll, .step true {}]

/-- Both schedules run dry, so they agree. -/
theorem schedule_independent_init :
    takenIn (seen Ram.fat {} initWhole) = takenIn (seen Ram.fat {} initSplit) ∧
      (after Ram.fat {} initWhole).toWorld = (after Ram.fat {} initSplit).toWorld :=
  have hwhole : RanDry Ram.fat {} {} initWhole :=
    ⟨by decide, ⟨initWhole.take 3, rfl⟩, by decide +kernel, by decide +kernel⟩
  have hsplit : RanDry Ram.fat {} {} initSplit :=
    ⟨by decide, ⟨initSplit.take 5, rfl⟩, by decide +kernel, by decide +kernel⟩
  schedule_independent hwhole hsplit (by decide)

end Sftp

end Ratputer
