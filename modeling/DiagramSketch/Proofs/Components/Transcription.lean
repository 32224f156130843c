import DiagramSketch.Proofs.Components.Manuscript
import DiagramSketch.Proofs.Components.Resolution

/-!
# Reading manuscripts of components

The source of a manuscript is read as the packages, components and connections that are written down
in it.  What has been read so far is always what a part of the manuscript says.
-/

namespace DiagramSketch.Components

open Text (IsName IsLine)

/-! ## Whole manuscripts -/

/-- A component as its line is read. -/
def Entry.line (entry : Entry) : Line :=
  .component entry.name entry.given

/-- A package as its lines are read. -/
def Block.statements (block : Block) : List Line :=
  .package block.title :: (block.entries.map Entry.line ++ [.closing])

/-- A manuscript as its lines are read. -/
def Manuscript.statements (manuscript : Manuscript) : List Line :=
  manuscript.blocks.flatMap Block.statements ++ manuscript.standalone.map Entry.line ++
    manuscript.links.map fun link => .connection link.read

variable {manuscript : Manuscript} {entry : Entry} {block : Block}

theorem filterMap_read?_entries {entries : List Entry} (writable : ∀ entry ∈ entries,
    entry.IsWritable) : (entries.map Entry.text).filterMap Line.read? = entries.map Entry.line :=
  filterMap_map_eq_map fun entry member => read?_entry (writable entry member).isReadable

theorem filterMap_read?_block (writable : block.IsWritable) :
    block.lines.filterMap Line.read? = block.statements := by
  rw [Block.lines, List.filterMap_cons_some (read?_opening writable), List.filterMap_append,
    filterMap_read?_entries writable.entries]
  rfl

/-- Every line can stand in a source, and none is marked. -/
theorem Manuscript.IsWritable.isLine (writable : manuscript.IsWritable) :
    ∀ line ∈ manuscript.lines, IsLine line ∧ line.head? ≠ some '@' := by
  have entry (entry : Entry) (writable : entry.IsWritable) :
      IsLine entry.text ∧ entry.text.head? ≠ some '@' :=
    ⟨isLine_entry writable, by simp [Entry.text]⟩
  intro line member
  rcases List.mem_append.mp member with member | linked
  · rcases List.mem_append.mp member with packaged | alone
    · obtain ⟨block, written, member⟩ := List.mem_flatMap.mp packaged
      have own := writable.blocks block written
      rcases List.mem_cons.mp member with rfl | member
      · exact ⟨isLine_opening own, isName_package.head?_append_ne (by decide +kernel) _⟩
      · rcases List.mem_append.mp member with member | closing
        · obtain ⟨inside, declared, rfl⟩ := List.mem_map.mp member
          exact entry inside (own.entries inside declared)
        · obtain rfl := List.mem_singleton.mp closing
          exact ⟨isLine_closing, by decide⟩
    · obtain ⟨outside, declared, rfl⟩ := List.mem_map.mp alone
      exact entry outside (writable.standalone outside declared)
  · obtain ⟨link, told, rfl⟩ := List.mem_map.mp linked
    have own := writable.links link told
    exact ⟨isLine_link own, Mention.head?_text_ne own.isReadable.source _⟩

theorem Manuscript.IsWritable.statements_source (writable : manuscript.IsWritable) :
    Components.statements (Text.sourceLines manuscript.source) = manuscript.statements := by
  have content := Text.contentLines_eq_self fun line member =>
    ⟨(writable.isLine line member).1.starts.ne_nil, (writable.isLine line member).2⟩
  have blocks : (manuscript.blocks.flatMap Block.lines).filterMap Line.read? =
      manuscript.blocks.flatMap Block.statements := by
    rw [List.filterMap_flatMap]
    exact List.flatMap_congr fun block member =>
      filterMap_read?_block (writable.blocks block member)
  have links : (manuscript.links.map Link.text).filterMap Line.read? =
      manuscript.links.map fun link => .connection link.read :=
    filterMap_map_eq_map fun link member => read?_link (writable.links link member)
  rw [Components.statements, Manuscript.source,
    Text.sourceLines_intercalate fun line member => (writable.isLine line member).1, content,
    Manuscript.lines, List.filterMap_append, List.filterMap_append, blocks,
    filterMap_read?_entries writable.standalone, links]
  rfl

/-! ## Reading on -/

/-- A package as it is read. -/
def Block.package (block : Block) : Package :=
  { name := some block.title, members := block.entries.map Entry.name }

/-- A component under its name, with the alias that it goes by: the one that is given, and else the
name. -/
def Entry.naming (entry : Entry) : Text × Text :=
  (entry.name, entry.given.getD entry.name)

/-- A manuscript as far as its last package, of which the entries are there. -/
def Manuscript.filling (blocks : List Block) (title : Text) (entries : List Entry) : Manuscript :=
  { blocks := blocks ++ [{ title, entries }], standalone := [], links := [] }

/-- A manuscript as far as its components on their own. -/
def Manuscript.listing (blocks : List Block) (standalone : List Entry) : Manuscript :=
  { blocks, standalone, links := [] }

/-- The components are those of the manuscript: the same packages and components in the same order,
the same aliases and the same connections. -/
structure Shows (components : Components) (manuscript : Manuscript) : Prop where
  packages : components.packages = manuscript.blocks.map Block.package
  standalone : components.standalone = manuscript.standalone.map Entry.name
  connections : components.connections = manuscript.links.map Link.read
  aliases : components.aliases = manuscript.entries.map Entry.naming

variable {components : Components} {blocks : List Block} {entries standalone : List Entry}
  {links : List Link} {title : Text} {reading : Reading}

theorem chosenAlias_given (writable : entry.IsWritable) :
    chosenAlias entry.given none entry.name = entry.given.getD entry.name := by
  cases given : entry.given with
  | none => rfl
  | some chosen =>
      have filled := (writable.given chosen given).filled
      have kept : (some chosen).filter (fun text => !text.isEmpty) = some chosen := by
        simp [Option.filter_eq_some_iff, filled]
      rw [chosenAlias, kept]
      rfl

/-- A component that is new goes by its own alias. -/
theorem aliases_declare (writable : entry.IsWritable)
    (fresh : entry.name ∉ components.aliases.names) (container : Container) :
    (components.declare entry.name entry.given container).aliases =
      components.aliases ++ [entry.naming] := by
  unfold Components.declare
  dsimp only
  rw [Keyed.find?_eq_none fresh, chosenAlias_given writable, Keyed.assign_of_not_mem fresh]
  rfl

/-- A component that is new is put in its container, and nothing else is changed. -/
theorem declare_eq_place {name : Text} (fresh : name ∉ components.aliases.names)
    (given : Option Text) (container : Container) :
    (components.declare name given container).packages =
        (components.place name container).packages ∧
      (components.declare name given container).standalone =
        (components.place name container).standalone ∧
      (components.declare name given container).connections = components.connections := by
  unfold Components.declare
  dsimp only
  rw [Keyed.find?_eq_none fresh]
  cases container with
  | none => exact ⟨rfl, rfl, rfl⟩
  | some index => exact ⟨rfl, rfl, rfl⟩

theorem Shows.addPackage (shows : components.Shows ⟨blocks, [], []⟩) (title : Text) :
    (components.addPackage (some title)).Shows (.filling blocks title []) := by
  obtain ⟨packages, standalone, connections, aliases⟩ := shows
  refine ⟨?_, standalone, connections, ?_⟩
  · rw [Components.addPackage, packages, Manuscript.filling, List.map_append]
    rfl
  · simpa [Manuscript.filling, Manuscript.entries, Components.addPackage] using aliases

/-- A component in the package that was opened last. -/
theorem Shows.declare_inside (shows : components.Shows (.filling blocks title entries))
    (writable : entry.IsWritable) (fresh : entry.name ∉ components.aliases.names) :
    (components.declare entry.name entry.given (some blocks.length)).Shows
      (.filling blocks title (entries ++ [entry])) := by
  obtain ⟨samePackages, sameStandalone, sameConnections⟩ :=
    declare_eq_place fresh entry.given (some blocks.length)
  constructor
  case packages =>
    have place := modify_append_singleton (blocks.map Block.package)
      (Block.package ⟨title, entries⟩)
      fun package => { package with members := package.members ++ [entry.name] }
    rw [List.length_map] at place
    rw [samePackages, Components.place, shows.packages, Manuscript.filling, List.map_append,
      List.map_singleton, place]
    simp [Manuscript.filling, Block.package]
  case standalone => exact sameStandalone.trans shows.standalone
  case connections => exact sameConnections.trans shows.connections
  case aliases =>
    rw [aliases_declare writable fresh, shows.aliases]
    simp [Manuscript.filling, Manuscript.entries]

/-- A component on its own. -/
theorem Shows.declare_alone (shows : components.Shows (.listing blocks standalone))
    (writable : entry.IsWritable) (fresh : entry.name ∉ components.aliases.names) :
    (components.declare entry.name entry.given none).Shows
      (.listing blocks (standalone ++ [entry])) := by
  obtain ⟨samePackages, sameStandalone, sameConnections⟩ := declare_eq_place fresh entry.given none
  constructor
  case packages => exact samePackages.trans shows.packages
  case standalone =>
    rw [sameStandalone, Components.place, shows.standalone]
    simp [Manuscript.listing]
  case connections => exact sameConnections.trans shows.connections
  case aliases =>
    rw [aliases_declare writable fresh, shows.aliases]
    simp [Manuscript.listing, Manuscript.entries]

theorem Shows.addConnection (shows : components.Shows ⟨blocks, standalone, links⟩) (link : Link) :
    (components.addConnection link.read).Shows ⟨blocks, standalone, links ++ [link]⟩ := by
  obtain ⟨packages, alone, connections, aliases⟩ := shows
  refine ⟨packages, alone, ?_, aliases⟩
  simp [Components.addConnection, connections]

theorem follow_inside (isOpen : reading.isOpen = true)
    (shows : reading.components.Shows (.filling blocks title entries))
    (writable : entry.IsWritable) (fresh : entry.name ∉ reading.components.aliases.names) :
    (follow reading entry.line).components.Shows (.filling blocks title (entries ++ [entry])) := by
  have container : reading.container = some blocks.length := by
    rw [Reading.container, if_pos isOpen, shows.packages]
    simp [Manuscript.filling]
  rw [Entry.line, follow, container]
  exact shows.declare_inside writable fresh

theorem follow_alone (closed : reading.isOpen = false)
    (shows : reading.components.Shows (.listing blocks standalone))
    (writable : entry.IsWritable) (fresh : entry.name ∉ reading.components.aliases.names) :
    (follow reading entry.line).components.Shows (.listing blocks (standalone ++ [entry])) := by
  have container : reading.container = none := by simp [Reading.container, closed]
  rw [Entry.line, follow, container]
  exact shows.declare_alone writable fresh

/-- The declarations of components are read one after the other, in a package or not. -/
theorem foldl_entries {stage : List Entry → Manuscript} {before : List Entry} {isOpen : Bool}
    (whole : ∀ entries, (stage entries).entries = before ++ entries)
    (step : ∀ reading entries entry, reading.isOpen = isOpen →
      reading.components.Shows (stage entries) → entry.IsWritable →
      entry.name ∉ reading.components.aliases.names →
      (follow reading entry.line).components.Shows (stage (entries ++ [entry])))
    (container : reading.isOpen = isOpen) (shows : reading.components.Shows (stage entries))
    {later : List Entry} (writable : ∀ entry ∈ later, entry.IsWritable)
    (distinct : ((before ++ entries ++ later).map Entry.name).Nodup) :
    ((later.map Entry.line).foldl follow reading).isOpen = isOpen ∧
      ((later.map Entry.line).foldl follow reading).components.Shows
        (stage (entries ++ later)) := by
  induction later generalizing reading entries with
  | nil =>
      rw [List.append_nil]
      exact ⟨container, shows⟩
  | cons entry later induction =>
      obtain ⟨own, others⟩ := List.forall_mem_cons.mp writable
      -- The components that are known are those of the stage, and this one has another name.
      have fresh : entry.name ∉ reading.components.aliases.names := by
        intro known
        rw [Keyed.names, shows.aliases, whole, List.map_map] at known
        rw [List.map_append] at distinct
        exact (List.nodup_append'.mp distinct).2.2 known List.mem_cons_self
      have stepped := step reading entries entry container shows own fresh
      have still : (follow reading entry.line).isOpen = isOpen := container
      have next := induction still stepped others (by simpa using distinct)
      rwa [List.append_assoc] at next

/-- A package is opened, filled and closed. -/
theorem foldl_block (shows : reading.components.Shows ⟨blocks, [], []⟩)
    (writable : block.IsWritable)
    (distinct : ((blocks.flatMap Block.entries ++ block.entries).map Entry.name).Nodup) :
    (block.statements.foldl follow reading).isOpen = false ∧
      (block.statements.foldl follow reading).components.Shows ⟨blocks ++ [block], [], []⟩ := by
  have whole (entries : List Entry) : (Manuscript.filling blocks block.title entries).entries =
      blocks.flatMap Block.entries ++ entries := by
    simp [Manuscript.filling, Manuscript.entries]
  have opened : (follow reading (.package block.title)).components.Shows
      (.filling blocks block.title []) :=
    shows.addPackage block.title
  have filled := foldl_entries whole (fun _ _ _ => follow_inside) rfl opened writable.entries
    (by simpa using distinct)
  rw [Block.statements, List.foldl_cons, List.foldl_append]
  exact ⟨rfl, filled.2⟩

theorem foldl_blocks (closed : reading.isOpen = false)
    (shows : reading.components.Shows ⟨blocks, [], []⟩) {later : List Block}
    (writable : ∀ block ∈ later, block.IsWritable)
    (distinct : (((blocks ++ later).flatMap Block.entries).map Entry.name).Nodup) :
    ((later.flatMap Block.statements).foldl follow reading).isOpen = false ∧
      ((later.flatMap Block.statements).foldl follow reading).components.Shows
        ⟨blocks ++ later, [], []⟩ := by
  induction later generalizing reading blocks with
  | nil =>
      rw [List.append_nil]
      exact ⟨closed, shows⟩
  | cons block later induction =>
      obtain ⟨own, others⟩ := List.forall_mem_cons.mp writable
      rw [List.append_cons] at distinct ⊢
      have first : ((blocks.flatMap Block.entries ++ block.entries).map Entry.name).Nodup := by
        rw [List.flatMap_append, List.map_append] at distinct
        simpa using (List.nodup_append'.mp distinct).1
      obtain ⟨closed, shows⟩ := foldl_block shows own first
      rw [List.flatMap_cons, List.foldl_append]
      exact induction closed shows others distinct

theorem foldl_links (shows : reading.components.Shows ⟨blocks, standalone, links⟩)
    (later : List Link) :
    ((later.map fun link => Line.connection link.read).foldl follow reading).components.Shows
      ⟨blocks, standalone, links ++ later⟩ := by
  induction later generalizing reading links with
  | nil =>
      rw [List.append_nil]
      exact shows
  | cons link later induction =>
      rw [List.append_cons]
      exact induction (shows.addConnection link)

theorem foldl_standalone (closed : reading.isOpen = false)
    (shows : reading.components.Shows ⟨blocks, [], []⟩)
    (writable : ∀ entry ∈ standalone, entry.IsWritable)
    (distinct : ((blocks.flatMap Block.entries ++ standalone).map Entry.name).Nodup) :
    ((standalone.map Entry.line).foldl follow reading).components.Shows
      ⟨blocks, standalone, []⟩ := by
  have start : reading.components.Shows (.listing blocks []) := shows
  exact (foldl_entries (fun _ => rfl) (fun _ _ _ => follow_alone) closed start writable
    (by simpa using distinct)).2

/-- The source of a manuscript is read as what is written down in it. -/
theorem shows_source (manuscript : Manuscript) (writable : manuscript.IsWritable) :
    (ofLines (Text.sourceLines manuscript.source)).Shows manuscript := by
  let start : Reading := { components := empty, isOpen := false }
  have nothing : start.components.Shows ⟨[], [], []⟩ := ⟨rfl, rfl, rfl, rfl⟩
  have distinct := writable.distinct
  rw [Manuscript.entries] at distinct
  have packaged : ((manuscript.blocks.flatMap Block.entries).map Entry.name).Nodup := by
    rw [List.map_append] at distinct
    exact (List.nodup_append'.mp distinct).1
  obtain ⟨closed, blocks⟩ := foldl_blocks rfl nothing writable.blocks packaged
  have alone := foldl_standalone closed blocks writable.standalone distinct
  have linked := foldl_links alone manuscript.links
  have read : ofLines (Text.sourceLines manuscript.source) =
      (manuscript.statements.foldl follow start).components := by
    rw [← writable.statements_source]
    rfl
  rw [read, Manuscript.statements, List.foldl_append, List.foldl_append]
  exact linked

/-- A manuscript whose names, aliases and labels look like other lines. -/
def deceptiveManuscript : Manuscript :=
  { blocks := [{ title := "[A] as B", entries := [⟨"A --> B", some "package"⟩, ⟨"\x7d", none⟩] }]
    standalone := [⟨" as ", some "as"⟩]
    links :=
      [⟨.word "package", "--", .bracketed "A --> B", "[C] as D : E"⟩,
       ⟨.bracketed "\x7d", "->", .word "as", []⟩] }

theorem isBracketable_of_all {name : Text} (filled : name ≠ [])
    (plain : name.all (fun character => !isBracket character && !Text.isLineBreak character) =
      true) : IsBracketable name := by
  simp only [List.all_eq_true, Bool.and_eq_true, Bool.not_eq_true'] at plain
  exact ⟨filled, fun character member => (plain character member).1,
    fun character member => (plain character member).2⟩

theorem isWritable_deceptiveManuscript : deceptiveManuscript.IsWritable := by
  have asName : IsName "as" := Text.isName_of_isLower (by decide) (by decide)
  have arrow : IsBracketable "A --> B" := isBracketable_of_all (by decide) (by decide)
  have brace : IsBracketable "\x7d" := isBracketable_of_all (by decide) (by decide)
  constructor
  case blocks =>
    refine List.forall_mem_singleton.mpr
      ⟨by decide, by decide, Text.isUnbroken_of_all (by decide), ?_⟩
    refine List.forall_mem_cons.mpr ⟨⟨arrow, ?_⟩, List.forall_mem_singleton.mpr ⟨brace, ?_⟩⟩
    · rintro chosen ⟨⟩
      exact isName_package
    · rintro chosen ⟨⟩
  case standalone =>
    refine List.forall_mem_singleton.mpr ⟨isBracketable_of_all (by decide) (by decide), ?_⟩
    rintro chosen ⟨⟩
    exact asName
  case links =>
    refine List.forall_mem_cons.mpr ⟨?_, List.forall_mem_singleton.mpr ?_⟩
    · exact ⟨isName_package, by decide, arrow, by decide, Text.isUnbroken_of_all (by decide)⟩
    · exact ⟨brace, by decide, asName, by decide, Text.isUnbroken_of_all (by decide)⟩
  case distinct => decide

theorem shows_source_of_deceptive : deceptiveManuscript.IsWritable ∧
    deceptiveManuscript.lines =
      ["package \"[A] as B\" \x7b", "[A --> B] as package", "[\x7d]", "\x7d", "[ as ] as as",
       "package -- [A --> B] : [C] as D : E", "[\x7d] -> as"] ∧
    (ofLines (Text.sourceLines deceptiveManuscript.source)).Shows deceptiveManuscript :=
  ⟨isWritable_deceptiveManuscript, by decide,
    shows_source deceptiveManuscript isWritable_deceptiveManuscript⟩

end DiagramSketch.Components
