import TagScript.Proofs.Answering
import TagScript.Proofs.Termination

/-!
# The layout of a script does not count

Where the tags of a script stand in its source, and how the text between
them is cut into pieces, makes no difference to what the script does: scripts
that are alike, run where everything else is the same and the procedures are
alike, go through frames that mirror each other. What differs is where a host
is told that the faults are.

On the same files this needs no care about what a runner asks them, for the
same files answer alike.
-/

namespace TagScript

/-- A fault as its code and its message. -/
def Event.fault? : Event → Option (String × String)
  | .faulted _ _ fault _ _ => some (fault.cause.code, fault.cause.message)
  | _ => none

/-- **The faults in a journal**, from the first to the latest, each by its
code and its message. -/
def World.faults (w : World) : List (String × String) := w.journal.reverse.filterMap Event.fault?

/-- Events that are alike are the same fault, or neither is one. -/
theorem Event.Alike.fault? {e f : Event} (h : e.Alike f) : Option.Rel Eq e.fault? f.fault? := by
  cases h with
  | faulted depth locals globals _ hcause =>
    refine .some ?_
    rw [hcause]
  | entered | invoked | called | started | left => exact .none

theorem Event.Alike.isFault_eq {e f : Event} (h : e.Alike f) : f.isFault = e.isFault := by
  cases h with
  | faulted | entered | invoked | called | started | left => rfl

/-- **Runs that differ in the layout of their tags only**: on the same files,
with journals that tell alike. -/
def Mirror.layout : Mirror := ⟨Eq, True, fun _ => False⟩

namespace Mirror

/-- Journals that are alike tell of the same faults. -/
theorem Worlds.faults_eq {M : Mirror} {v w : World} (h : M.Worlds v w) (hjournals : M.journals) :
    w.faults = v.faults := by
  have hfaults := List.rel_filterMap (P := Eq) (fun _ _ h => Event.Alike.fault? h)
    (List.rel_reverse (h.journal hjournals))
  rw [List.forall₂_eq_eq_eq] at hfaults
  exact hfaults.symm

variable {s t : Frame}

/-- A handler does the same to the same files. -/
theorem Worlds.record_layout {v w : World} (h : layout.Worlds v w) (handler : Handler)
    (value : String → Value) : layout.Worlds (v.record handler value) (w.record handler value) := by
  refine h.record handler value ?_
  have hfiles : v.files = w.files := h.files
  show (v.record handler value).files = (w.record handler value).files
  rw [World.files_record, World.files_record, hfiles]

/-- **Tags that are alike are executed alike.** -/
theorem executes_layout (limit : Option Nat) (means : Nat) (outer : Depth) :
    layout.accord.Executes ((Engine.standard limit).execute means)
      ((Engine.standard limit).execute means) outer outer := by
  induction means generalizing outer with
  | zero => exact fun _ _ _ h => .exhausted h
  | succ means ih =>
    intro a b hab s t h
    have hentered := h.enter hab (outer + 1)
    have hanswers := Accord.answers_of_eq (K := layout.accord) (fun _ _ => .rfl) a
      (hentered.invoke hab (outer + 1))
    exact boundary hab (dispatch hab hentered (fun _ => hanswers) (ih (outer + 1)))
      fun _ _ handler _ _ _ _ h value => Worlds.record_layout h handler value

end Mirror

namespace Engine

/-- **What a run does depends on the structure of its tags, not on their
layout.** Take two tags that agree node by node in names, attributes, inner
tags and joined texts, and two frames that are the same but for procedures
and journals, in which tags may differ just so. Executed with the same means
the two yield the same or are both cut off, and leave behind the same local
and global variables, files, memory handles and names of procedures, and the
same faults in the same order, each with its code and its message. -/
theorem execute_ignores_layout (limit : Option Nat) (means : Nat) (outer : Depth) {a b : Tag}
    (hab : a.Alike b) {s t : Frame} (h : Mirror.layout.Frames s t) :
    (∀ outcome, (∃ u, (standard limit).execute means a outer s = .done outcome u) ↔
      ∃ u, (standard limit).execute means b outer t = .done outcome u) ∧
    ((standard limit).execute means b outer t).after.locals =
      ((standard limit).execute means a outer s).after.locals ∧
    ((standard limit).execute means b outer t).after.world.globals =
      ((standard limit).execute means a outer s).after.world.globals ∧
    ((standard limit).execute means b outer t).after.world.files =
      ((standard limit).execute means a outer s).after.world.files ∧
    ((standard limit).execute means b outer t).after.world.handles =
      ((standard limit).execute means a outer s).after.world.handles ∧
    ((standard limit).execute means b outer t).after.world.procedures.keys =
      ((standard limit).execute means a outer s).after.world.procedures.keys ∧
    ((standard limit).execute means b outer t).after.world.faults =
      ((standard limit).execute means a outer s).after.world.faults := by
  have hends := Mirror.executes_layout limit means outer hab h
  have hafter := hends.frames id
  exact ⟨hends.done_iff id, hafter.locals, hafter.world.globals, hafter.world.files.symm,
    hafter.world.handles, hafter.world.procedures.keys_eq, hafter.world.faults_eq trivial⟩

/-- A group that fills a template and calls a procedure, written over many
lines. -/
def scattered : Tag :=
  ⟨"sub", [("pass_through", some "yes")],
    [.text "\n ", .tag ⟨"template", [("_to_key", some "x")],
      [.text "a", .tag ⟨"get", [], [], ⟨⟨3, 3⟩, ⟨3, 9⟩⟩⟩, .text "b"], ⟨⟨2, 2⟩, ⟨4, 12⟩⟩⟩,
      .tag ⟨"call", [("name", some "p")], [], ⟨⟨5, 2⟩, ⟨5, 18⟩⟩⟩], ⟨⟨1, 1⟩, ⟨6, 7⟩⟩⟩

/-- The same group in one line. -/
def gathered : Tag :=
  ⟨"sub", [("pass_through", some "yes")],
    [.tag ⟨"template", [("_to_key", some "x")],
      [.tag ⟨"get", [], [], .nowhere⟩, .text "ab"], .nowhere⟩,
      .tag ⟨"call", [("name", some "p")], [], .nowhere⟩, .text "\n "], .nowhere⟩

/-- A frame with a procedure whose only tag has no runner, at some place of a
source. -/
def frameDefining (place : Span) : Frame :=
  ⟨[], { World.ofFiles (.empty []) "" .bare with
    procedures := [("p", ⟨"procedure", [("name", some "p")],
      [.tag ⟨"mystery", [], [], place⟩], place⟩)] }⟩

theorem scattered_ignores_layout :
    scattered.Alike gathered ∧
    Mirror.layout.Frames (frameDefining ⟨⟨7, 1⟩, ⟨9, 8⟩⟩) (frameDefining .nowhere) ∧
    ((standard none).execute 4 gathered 0 (frameDefining .nowhere)).after.locals.get? "x" =
      some (.str "ab") ∧
    ((standard none).execute 4 gathered 0 (frameDefining .nowhere)).after.world.faults =
      [("ENGINE_RUNNER_NOT_FOUND", "No runner is registered for tag \"mystery\".")] := by
  have halike : scattered.Alike gathered :=
    .intro rfl rfl rfl (.cons (.intro rfl rfl rfl (.cons (.intro rfl rfl rfl .nil) .nil))
      (.cons (.intro rfl rfl rfl .nil) .nil))
  have hprocedures : Mirror.Procedures (frameDefining ⟨⟨7, 1⟩, ⟨9, 8⟩⟩).world.procedures
      (frameDefining .nowhere).world.procedures :=
    .cons ⟨rfl, .intro rfl rfl rfl (.cons (.intro rfl rfl rfl .nil) .nil)⟩ .nil
  have hframes :
      Mirror.layout.Frames (frameDefining ⟨⟨7, 1⟩, ⟨9, 8⟩⟩) (frameDefining .nowhere) :=
    ⟨rfl, ⟨rfl, hprocedures, rfl, rfl, rfl, rfl, rfl, rfl, rfl, rfl, rfl,
      fun _ _ _ h => h.isFault_eq, fun _ => .nil⟩⟩
  obtain ⟨_, hlocals, _, _, _, _, hfaults⟩ :=
    execute_ignores_layout none 4 0 halike hframes
  refine ⟨halike, hframes, ?_, ?_⟩
  · rw [hlocals]
    rfl
  · rw [hfaults]
    rfl

end Engine

end TagScript
