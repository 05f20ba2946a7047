import Marshal.Proofs.Graph.Locations
import Marshal.Proofs.Settings.Transfer

/-!
# One node for every location

The graph of a structure and that of a registry have one node for every described location, as long
as no name has a character that suffixes begin with. A dotted name can be spelled by two chains.
-/

namespace Marshal

namespace Settings

/-- Draws all settings of a registry below their root. -/
def draw (schema : Schema) (settings : Settings) : Step Graph :=
  (Entries.label graphRoot).andThen (settings.entries.describe schema graphRoot)

/-- That the names of all settings are plain, and so are those of their members. -/
def PlainlyNamed (schema : Schema) (settings : Settings) : Prop :=
  ∀ entry ∈ settings.entries, Graph.PlainName entry.1 ∧ schema.PlainlyNamed entry.2.type

variable {schema : Schema} {settings : Settings}

theorem graph_drawn {graph : Graph} (drawn : settings.draw schema .empty = (.ok (), graph)) :
    settings.graph schema = .ok (graph.render graphRoot) := by
  rw [draw] at drawn
  rw [Settings.graph, drawn]

theorem draw_pictures (schema : Schema) (settings : Settings) :
    schema.Pictures (.settings settings.entries)
      (∃ entry ∈ settings.entries, schema.Broken entry.2.type) [] graphRoot (settings.draw schema) :=
  (Schema.describe_settings_pictures graphRoot settings.entries).labelled rfl

end Settings

namespace Schema

variable {schema : Schema}

/-- Where no name has a dot, a bracket or a question mark in it, the graphs of structures and those
of registries have one node for every described location. Only a broken declaration keeps a graph
from being drawn. -/
theorem one_node_per_location [Json.NumberReader] (sound : schema.Sound) :
    (∀ name root, schema.PlainlyNamed (.record name) →
      (¬ schema.Broken (.record name) →
        ∃ graph, schema.graphInto name root .empty = (.ok (), graph)) ∧
      ∀ graph, schema.graphInto name root .empty = (.ok (), graph) →
        schema.graphText name root = .ok (graph.render root) ∧
          schema.NodePerLocation root (.type [] (.record name)) graph) ∧
    ∀ settings, Settings.Reached schema settings → settings.PlainlyNamed schema →
      ((∀ entry ∈ settings.entries, ¬ schema.Broken entry.2.type) →
        ∃ graph, settings.draw schema .empty = (.ok (), graph)) ∧
      ∀ graph, settings.draw schema .empty = (.ok (), graph) →
        settings.graph schema = .ok (graph.render Settings.graphRoot) ∧
          schema.NodePerLocation Settings.graphRoot (.settings settings.entries) graph := by
  constructor
  · intro name root named
    have pictures : schema.Pictures (.type [] (.record name)) (schema.Broken (.record name)) [] root
        (schema.graphInto name root) := graph_into_pictures name root
    refine ⟨pictures.succeeds, fun graph drawn => ⟨graph_text_drawn drawn, ?_⟩⟩
    exact pictures.node_per_location sound named drawn
  · intro settings reached named
    have pictures := settings.draw_pictures schema
    refine ⟨fun built => pictures.succeeds ?_, fun graph drawn => ⟨Settings.graph_drawn drawn, ?_⟩⟩
    · rintro ⟨entry, inside, broken⟩
      exact built entry inside broken
    · exact pictures.node_per_location sound ⟨reached.ordered.distinct, named⟩ drawn

end Schema

namespace Route

open Settings

theorem plainly_named : schema.PlainlyNamed (.record "Stop") := by
  intro name inside
  obtain rfl : name = "Stop" := by simpa [fares, next] using parts inside
  have leaves : ∀ leaf ∈ schema.leaves "Stop", leaf.name ∈ ["name", "fares", "next"] := by decide
  have plain : ∀ output ∈ ["name", "fares", "next"], Graph.PlainName output := by decide
  exact fun leaf own => plain _ (leaves leaf own)

theorem builds : ¬ schema.Broken (.record "Stop") := by
  rintro (⟨name, fault, inside, failed⟩ | ⟨name, fault, inside, failed⟩)
  · obtain rfl : name = "Stop" := by simpa [fares, next] using parts inside
    cases failed
  · simpa [fares, next] using parts inside

theorem count_plainly_named : schema.PlainlyNamed count := by
  intro name inside
  rcases count_parts inside with same | same <;> cases same

theorem preferences_plainly_named (home limit : Val) :
    (preferences home limit).PlainlyNamed schema := by
  rw [Settings.PlainlyNamed, preferences_entries]
  simp only [List.forall_mem_cons]
  exact ⟨⟨by decide, plainly_named⟩, ⟨by decide, count_plainly_named⟩, nofun⟩

theorem preferences_build (home limit : Val) :
    ∀ entry ∈ (preferences home limit).entries, ¬ schema.Broken entry.2.type := by
  rw [preferences_entries]
  simp only [List.forall_mem_cons]
  refine ⟨builds, ?_, nofun⟩
  rintro (⟨name, fault, inside, -⟩ | ⟨name, fault, inside, -⟩) <;>
    rcases count_parts inside with same | same <;> cases same

/-- A registry of a stop and of a text whose name is that of the stop's name below the root. -/
def homes : Settings :=
  run schema (withConfig .plain) [
    .declareValue (.record "Stop") "home" (stop "" [] .absent 0) false .absent,
    .declareValue .string "home.name" (.text "") false .absent]

theorem homes_entries : homes.entries =
    [("home", .of (.record "Stop") (stop "" [] .absent 0)), ("home.name", .of .string (.text ""))] := by
  rfl

end Route

namespace Schema

/-- The graphs of a stop, and of a registry of a stop and a number. -/
theorem one_node_per_location_route :
    Route.schema.Sound ∧ Route.schema.PlainlyNamed (.record "Stop") ∧
      ¬ Route.schema.Broken (.record "Stop") ∧ Settings.Reached Route.schema Route.unlimited ∧
      Route.unlimited.PlainlyNamed Route.schema ∧
      (∀ entry ∈ Route.unlimited.entries, ¬ Route.schema.Broken entry.2.type) ∧
      (∃ graph, Route.schema.graphInto "Stop" "Root" .empty = (.ok (), graph) ∧
        Route.schema.NodePerLocation "Root" (.type [] (.record "Stop")) graph) ∧
      ∃ graph, Route.unlimited.draw Route.schema .empty = (.ok (), graph) ∧
        Route.schema.NodePerLocation "Settings" (.settings Route.unlimited.entries) graph := by
  obtain ⟨structures, registries⟩ := one_node_per_location Route.sound
  obtain ⟨drawn, nodes⟩ := structures "Stop" "Root" Route.plainly_named
  obtain ⟨graph, stop⟩ := drawn Route.builds
  have reached : Settings.Reached Route.schema Route.unlimited := Route.preferences_reached _ _
  have named : Route.unlimited.PlainlyNamed Route.schema := Route.preferences_plainly_named _ _
  have build : ∀ entry ∈ Route.unlimited.entries, ¬ Route.schema.Broken entry.2.type :=
    Route.preferences_build _ _
  obtain ⟨settingsDrawn, settingsNodes⟩ := registries Route.unlimited reached named
  obtain ⟨other, settings⟩ := settingsDrawn build
  exact ⟨Route.sound, Route.plainly_named, Route.builds, reached, named, build,
    ⟨graph, stop, (nodes graph stop).2⟩, other, settings, (settingsNodes other settings).2⟩

/-- The name of the stop `home` and the setting `home.name` share a node. -/
theorem dotted_settings_share_nodes :
    ¬ ∀ settings graph, Settings.Reached Route.schema settings →
      settings.draw Route.schema .empty = (.ok (), graph) →
        Route.schema.NodePerLocation Settings.graphRoot (.settings settings.entries) graph := by
  intro claimed
  have outcome : (Route.homes.draw Route.schema .empty).1 = .ok () := by decide +kernel
  have once := claimed Route.homes _ ⟨_, _, rfl⟩ (Prod.ext outcome rfl)
  rw [Route.homes_entries] at once
  have inside : Route.schema.Below (.type [] (.record "Stop")) [".name"] (.type ["Stop"] .string) :=
    .step List.mem_cons_self .here
  have chains := once.apart [".home", ".name"] [".home.name"] _ _ (.step List.mem_cons_self inside)
    (.step (List.mem_cons_of_mem _ List.mem_cons_self) .here) rfl
  exact absurd chains (by decide)

end Schema

end Marshal
