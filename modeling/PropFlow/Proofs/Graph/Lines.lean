import PropFlow.Proofs.Graph

namespace PropFlow.Graph

section Forms

-- A text between quotes, with a backslash before each quote in it.
def inQuotes (text : String) : String :=
  "\"" ++ String.join (text.toList.map fun c => if c = '\x22' then "\\\"" else c.toString) ++ "\""

-- The line of a box with an id and a label; a box in conflict is dashed and red.
def nodeLine (id label : String) (conflicted : Bool) : String :=
  "  " ++ inQuotes id ++ " [label=\"" ++ label ++ "\""
    ++ (if conflicted then ", style=dashed, color=red" else "") ++ "];"

-- The line of an edge between two ids.
def edgeLine (source target type : String) : String :=
  "  " ++ inQuotes source ++ " -> " ++ inQuotes target ++ " [label=" ++ inQuotes type ++ "];"

-- The text of a drawing: two lines about all of it, the boxes, the edges, and braces around them.
def page (nodes edges : List String) : String :=
  "\n".intercalate ("digraph ReactGraph \x7b" :: "  rankdir=LR;" ::
    "  node [shape=record, fontname=Helvetica];" :: (nodes ++ edges ++ ["\x7d"]))

end Forms

def Vertex.written (v : Vertex) : String :=
  nodeLine v.id (String.ofList (recordLabel v.component v.location)) v.conflicted

def Edge.written (e : Edge) : String :=
  edgeLine e.source e.target e.type

theorem quote_eq_inQuotes (text : String) : quote text = inQuotes text := by
  have hescape : ∀ cs : List Char, String.ofList (escape cs) =
      String.join (cs.map fun c => if c = '\x22' then "\\\"" else c.toString) := by
    intro cs
    induction cs with
    | nil => rfl
    | cons c rest ih =>
        rw [List.map_cons, String.join_cons, ← ih, escape, escapeMark, List.flatMap_cons, String.ofList_append]
        congr 1
        split
        · rename_i hc
          rw [hc]
        · rfl
  rw [quote, inQuotes, hescape]

theorem Vertex.line_eq_written (v : Vertex) : v.line = v.written := by
  rw [line, written, nodeLine, quote_eq_inQuotes]

theorem Edge.line_eq_written (e : Edge) : e.line = e.written := by
  rw [line, written, edgeLine, quote_eq_inQuotes, quote_eq_inQuotes, quote_eq_inQuotes]

-- There is one line for each vertex, and then one for each edge.
theorem text_eq_page (g : Graph) :
    g.text = page (g.vertices.map Vertex.written) (g.edges.map Edge.written) := by
  have hvertices : g.vertices.map Vertex.line = g.vertices.map Vertex.written :=
    List.map_congr_left fun v _ => v.line_eq_written
  have hedges : g.edges.map Edge.line = g.edges.map Edge.written :=
    List.map_congr_left fun e _ => e.line_eq_written
  rw [text, lines, hvertices, hedges, page]
  simp only [List.cons_append, List.nil_append, List.append_assoc]

section Render

variable {cwd : List String} {r : Result} {places : List (String × String)} {text focused : String}

-- Whatever is shown, it is the text of a part of the one graph that a result has.
theorem render_of_locations (h : locations cwd r.components = .ok places) (focused : String) :
    render cwd r focused = .ok ((drawing r places).focus focused).text := by
  rw [render, build_eq_drawing h]
  rfl

theorem render_whole (h : locations cwd r.components = .ok places) : render cwd r "" =
    .ok (page ((drawing r places).vertices.map Vertex.written) ((drawing r places).edges.map Edge.written)) := by
  rw [render_of_locations h, focus, if_pos (.inl rfl), text_eq_page]

theorem exists_locations_of_render (h : render cwd r focused = .ok text) :
    ∃ places, locations cwd r.components = .ok places := by
  obtain ⟨g, hbuild, -⟩ := Except.map_eq_ok.mp h
  obtain ⟨places, hplaces, -⟩ := Except.bind_eq_ok.mp hbuild
  exact ⟨places, hplaces⟩

end Render

end PropFlow.Graph
