import Marshal.Graph.Describe
import Marshal.Proofs.Graph.Drawing
import Marshal.Proofs.Structure.Leaves
import Marshal.Proofs.Value.Exact
import Marshal.Settings.Registry

/-!
# What a description unfolds

At each location a type is described, inside of the structures that are being described around it.
A structure that is among these is only marked, and an extension of such a structure adds nothing;
so the types below a location depend on the way to it. A description draws the tree of locations
that unfolds from its subject, or fails for a declaration that it has come to.
-/

namespace Marshal

/-- What is described at a location: a type inside of structures, or the settings of a registry. -/
inductive Subject
  | type (around : List String) (type : Ty)
  | settings (entries : Entries)

namespace Member

mutual

/-- The locations that a member adds inside of structures, each with what is described there. -/
def shown (around : List String) : Member → List (String × Subject)
  | .field head type => [("." ++ head.name, .type around type)]
  | .extend _ base members =>
      if base ∈ around then [] else shownAll (base :: around) members

def shownAll (around : List String) : List Member → List (String × Subject)
  | [] => []
  | member :: rest => shown around member ++ shownAll around rest

end

end Member

namespace Schema

section Subjects

variable (schema : Schema) (around : List String)

def slotsBelow (position : Nat) : List Ty → List (String × Subject)
  | [] => []
  | type :: rest => ("." ++ toString position, .type around type) :: slotsBelow (position + 1) rest

def typesBelow : Ty → List (String × Subject)
  | .primitive _ => []
  | .string => []
  | .textual _ => []
  | .enumeration _ => []
  | .record name =>
      if name ∈ around then []
      else
        match (schema.structureInfo name).members with
        | .error _ => []
        | .ok members => Member.shownAll (name :: around) members
  | .option inner => [("?", .type around inner)]
  | .sequence _ item => [("[]", .type around item)]
  | .map _ key value =>
      match schema.keyNaming? key with
      | some _ => [(".*", .type around value)]
      | none => [(".key", .type around key), (".value", .type around value)]
  | .tuple slots => slotsBelow around 0 slots
  | .boxed inner => typesBelow inner

def typeCaption : Ty → String
  | .primitive scalar => scalar.wideKind.name
  | .string => "string"
  | .textual _ => "string"
  | .enumeration name =>
      match (schema.enumerationInfo name).table with
      | .error _ => ""
      | .ok table => enumerationLabel (schema.enumerationInfo name) table
  | .record name =>
      if name ∈ around then (schema.structureInfo name).label ++ " (recursive)"
      else (schema.structureInfo name).label
  | .option _ => "optional"
  | .sequence _ _ => "sequence"
  | .map _ _ _ => "map"
  | .tuple _ => "tuple"
  | .boxed inner => typeCaption inner

end Subjects

/-- The locations right below one, each with its suffix and with what is described there. -/
def below (schema : Schema) : Subject → List (String × Subject)
  | .type around type => schema.typesBelow around type
  | .settings entries => entries.map fun entry => ("." ++ entry.1, .type [] entry.2.type)

def caption (schema : Schema) : Subject → String
  | .type around type => schema.typeCaption around type
  | .settings _ => "settings"

/-- The ways from a location down to others. -/
inductive Below (schema : Schema) : Subject → List String → Subject → Prop
  | here {subject : Subject} : Below schema subject [] subject
  | step {subject next target : Subject} {suffix : String} {chain : List String}
      (inside : (suffix, next) ∈ schema.below subject) (further : Below schema next chain target) :
      Below schema subject (suffix :: chain) target

mutual

/-- That a drawing shows a subject and all locations below it. -/
def Unfolds (schema : Schema) : Drawing → Subject → Prop
  | .node caption parts, subject =>
      caption = schema.caption subject ∧ UnfoldsAll schema parts (schema.below subject)

def UnfoldsAll (schema : Schema) : List (String × Drawing) → List (String × Subject) → Prop
  | [], subjects => subjects = []
  | (suffix, drawing) :: rest, subjects =>
      ∃ subject others, subjects = (suffix, subject) :: others ∧ Unfolds schema drawing subject ∧
        UnfoldsAll schema rest others

end

/-- That a declaration which describing a type comes to has failed. -/
def Broken (schema : Schema) (type : Ty) : Prop :=
  (∃ name fault, schema.Part type (.record name) ∧
    (schema.structureInfo name).members = .error fault) ∨
  ∃ name fault, schema.Part type (.enumeration name) ∧
    (schema.enumerationInfo name).table = .error fault

/-- That a step draws a subject at a path, inside of structures, unless a declaration is broken. -/
def Pictures (schema : Schema) (subject : Subject) (broken : Prop) (around : List String)
    (path : String) (step : Step Graph) : Prop :=
  ∀ graph, graph.visiting = around →
    (∃ drawing, schema.Unfolds drawing subject ∧ step graph = (.ok (), drawing.draw path graph)) ∨
      ∃ fault left, step graph = (.error fault, left) ∧ broken

def PicturesAll (schema : Schema) (subjects : List (String × Subject)) (broken : Prop)
    (around : List String) (owner : String) (step : Step Graph) : Prop :=
  ∀ graph, graph.visiting = around →
    (∃ parts, schema.UnfoldsAll parts subjects ∧
      step graph = (.ok (), Drawing.drawAll owner graph parts)) ∨
      ∃ fault left, step graph = (.error fault, left) ∧ broken

variable {schema : Schema}

theorem Broken.direct {type part : Ty} (direct : schema.Direct type part)
    (broken : schema.Broken part) : schema.Broken type := by
  rcases broken with ⟨name, fault, inside, failed⟩ | ⟨name, fault, inside, failed⟩
  · exact .inl ⟨name, fault, .head direct inside, failed⟩
  · exact .inr ⟨name, fault, .head direct inside, failed⟩

theorem unfolds_all_append {first second : List (String × Drawing)}
    {subjects others : List (String × Subject)} (unfolds : schema.UnfoldsAll first subjects)
    (further : schema.UnfoldsAll second others) :
    schema.UnfoldsAll (first ++ second) (subjects ++ others) := by
  induction first generalizing subjects with
  | nil =>
      obtain rfl : subjects = [] := unfolds
      exact further
  | cons part rest induction =>
      obtain ⟨subject, more, rfl, own, unfolds⟩ := unfolds
      exact ⟨subject, more ++ others, rfl, own, induction unfolds⟩

section Steps

variable {subject : Subject} {subjects others : List (String × Subject)} {broken : Prop}
variable {around : List String} {path owner : String} {step further : Step Graph}

theorem Pictures.imp (pictures : schema.Pictures subject broken around path step) {worse : Prop}
    (implies : broken → worse) : schema.Pictures subject worse around path step :=
  fun graph visits => (pictures graph visits).imp_right fun ⟨fault, left, failed, holds⟩ =>
    ⟨fault, left, failed, implies holds⟩

/-- What a step that pictures a subject leaves of an empty graph. -/
theorem Pictures.drawn {graph : Graph} (pictures : schema.Pictures subject broken [] path step)
    (ok : step .empty = (.ok (), graph)) :
    ∃ drawing, schema.Unfolds drawing subject ∧ graph = drawing.draw path .empty := by
  rcases pictures .empty rfl with ⟨drawing, unfolds, drawn⟩ | ⟨fault, left, failed, -⟩
  · rw [ok] at drawn
    exact ⟨drawing, unfolds, (Prod.mk.inj drawn).2⟩
  · rw [ok] at failed
    cases failed

theorem Pictures.succeeds (pictures : schema.Pictures subject broken [] path step)
    (fine : ¬ broken) : ∃ graph, step .empty = (.ok (), graph) := by
  rcases pictures .empty rfl with ⟨drawing, -, drawn⟩ | ⟨fault, left, -, failed⟩
  · exact ⟨_, drawn⟩
  · exact absurd failed fine

theorem PicturesAll.imp (pictures : schema.PicturesAll subjects broken around owner step)
    {worse : Prop} (implies : broken → worse) :
    schema.PicturesAll subjects worse around owner step :=
  fun graph visits => (pictures graph visits).imp_right fun ⟨fault, left, failed, holds⟩ =>
    ⟨fault, left, failed, implies holds⟩

theorem PicturesAll.labelled {text : String} (shows : schema.caption subject = text)
    (pictures : schema.PicturesAll (schema.below subject) broken around path step) :
    schema.Pictures subject broken around path ((label path text).andThen step) := by
  intro graph visits
  have begun : (label path text).andThen step graph = step (graph.node path text) := rfl
  rw [begun]
  rcases pictures (graph.node path text) visits with ⟨parts, unfolds, drawn⟩ | failed
  · exact .inl ⟨.node _ parts, ⟨shows.symm, unfolds⟩, drawn⟩
  · exact .inr failed

theorem label_pictures {text : String} (shows : schema.caption subject = text)
    (alone : schema.below subject = []) :
    schema.Pictures subject broken around path (label path text) :=
  fun _ _ => .inl ⟨.node _ [], ⟨shows.symm, alone⟩, rfl⟩

theorem Pictures.boxed {inner : Ty} {within : List String}
    (pictures : schema.Pictures (.type within inner) broken around path step) :
    schema.Pictures (.type within (.boxed inner)) broken around path step := by
  intro graph visits
  refine (pictures graph visits).imp_left ?_
  rintro ⟨⟨caption, parts⟩, unfolds, drawn⟩
  exact ⟨.node caption parts, unfolds, drawn⟩

theorem nothing_pictured : schema.PicturesAll [] broken around owner .done :=
  fun _ _ => .inl ⟨[], rfl, rfl⟩

theorem fail_pictures (fault : Fault) (holds : broken) :
    schema.Pictures subject broken around path (.fail fault) :=
  fun graph _ => .inr ⟨fault, graph, rfl, holds⟩

theorem Pictures.within {suffix : String} {describe : String → Step Graph}
    (pictures : schema.Pictures subject broken around (owner ++ suffix)
      (describe (owner ++ suffix))) :
    schema.PicturesAll [(suffix, subject)] broken around owner (within owner suffix describe) := by
  intro graph visits
  rcases pictures (graph.child owner suffix) visits with ⟨drawing, unfolds, drawn⟩ | failed
  · exact .inl ⟨[(suffix, drawing)], ⟨subject, [], rfl, unfolds, rfl⟩, drawn⟩
  · exact .inr failed

theorem PicturesAll.andThen (pictures : schema.PicturesAll subjects broken around owner step)
    (more : schema.PicturesAll others broken around owner further) :
    schema.PicturesAll (subjects ++ others) broken around owner (step.andThen further) := by
  intro graph visits
  rcases pictures graph visits with ⟨parts, unfolds, drawn⟩ | ⟨fault, left, failed, holds⟩
  · have visits : (Drawing.drawAll owner graph parts).visiting = around := by
      rw [Drawing.draw_all_visiting, visits]
    rw [Step.andThen, drawn]
    rcases more _ visits with ⟨rest, restUnfolds, restDrawn⟩ | failed
    · refine .inl ⟨parts ++ rest, unfolds_all_append unfolds restUnfolds, ?_⟩
      rw [Drawing.draw_all_append]
      exact restDrawn
    · exact .inr failed
  · rw [Step.andThen, failed]
    exact .inr ⟨fault, left, rfl, holds⟩

theorem PicturesAll.mapFault (pictures : schema.PicturesAll subjects broken around owner step)
    (change : Fault → Fault) :
    schema.PicturesAll subjects broken around owner (step.mapFault change) := by
  intro graph visits
  rw [Step.mapFault]
  rcases pictures graph visits with ⟨parts, unfolds, drawn⟩ | ⟨fault, left, failed, holds⟩
  · rw [drawn]
    exact .inl ⟨parts, unfolds, rfl⟩
  · rw [failed]
    exact .inr ⟨change fault, left, rfl, holds⟩

/-- What is drawn with a structure on the stack is drawn in the same way without it. -/
theorem PicturesAll.entering {name : String}
    (pictures : schema.PicturesAll subjects broken (name :: around) owner step) :
    schema.PicturesAll subjects broken around owner (entering name step) := by
  intro graph visits
  have entered : (graph.enter name).visiting = name :: around := congrArg (List.cons name) visits
  rcases pictures _ entered with ⟨parts, unfolds, drawn⟩ | ⟨fault, left, failed, holds⟩
  · refine .inl ⟨parts, unfolds, ?_⟩
    -- Drawing leaves the stack as it is, so what is taken off is the structure that was entered.
    have restored : (Drawing.drawAll owner (graph.enter name) parts).leave =
        Drawing.drawAll owner graph parts := by
      rw [Graph.enter, Drawing.draw_all_under, Graph.leave]
      dsimp only
      rw [List.tail_cons, ← Drawing.draw_all_visiting owner graph parts]
    rw [Schema.entering, drawn]
    exact congrArg (Prod.mk _) restored
  · rw [Schema.entering, failed]
    exact .inr ⟨fault, left.leave, rfl, holds⟩

end Steps

end Schema

end Marshal
