/-
Module: StyledWidgets.Inspect.Window
Purpose: Documents of widgets, of the forest, of what stylists count and of the damage of windows,
  for tools that look inside.
Main exports: Widget.toJson, Forest.toJson, StyleStats.toJson, Damage.toJson, Application.toJson
-/
import StyledWidgets.Application
import StyledWidgets.Inspect.Geometry

namespace StyledWidgets

open StyledWidgets.Style

/-- The identity of a widget as a number. -/
def WidgetId.toJson (id : WidgetId) : JsonValue := .nat id.raw

/-- The key of a node. -/
def Style.NodeKey.toJson : NodeKey → JsonValue
  | .widget id => .text ("Widget(" ++ Nat.repr id ++ ")")
  | .query id => .text ("Query(" ++ Nat.repr id ++ ")")

/-- A widget with its links. -/
def Widget.toJson (widget : Widget) : JsonValue :=
  .record
    [ ("type", .text widget.typeName),
      ("name", .text widget.objectName),
      ("rect", widget.geometry.toJson),
      ("visible", .bool widget.visible),
      ("opaque", .bool widget.isOpaque),
      ("never_overlap", .bool widget.childrenNeverOverlap),
      ("ignores", .bool widget.ignoresSheets),
      ("pseudo", .nat widget.pseudo.bits.toNat),
      ("text", .text widget.text),
      ("frame", .nat widget.frame.toNat),
      ("parent", .orNull WidgetId.toJson widget.parent),
      ("children", .list WidgetId.toJson widget.children) ]

/-- Everything that the forest tells of an identity, also of one that belongs to no widget. -/
def Forest.viewOf (forest : Forest) (id : WidgetId) : JsonValue :=
  let node := forest.styleNode id
  let parent := JsonValue.orNull WidgetId.toJson (forest.parent? id)
  let children := JsonValue.list WidgetId.toJson (forest.children id)
  .record
    [ ("key", node.key.toJson),
      ("type", .text node.typeName),
      ("name", .text node.objectName),
      ("style_parent", parent),
      ("style_children", children),
      ("ignores", .bool node.ignoresSheets),
      ("has_ref", .bool (forest.contains id)),
      ("parent", parent),
      ("children", children),
      ("rect", (forest.geometry id).toJson),
      ("visible", .bool (forest.isVisible id)),
      ("opaque", .bool (forest.isOpaque id)),
      ("never_overlap", .bool (forest.childrenNeverOverlap id)),
      ("pseudo", .nat (forest.pseudo id).bits.toNat),
      ("text", .text (forest.text id)),
      ("frame", .nat (forest.frame id).toNat) ]

/-- The shape of a forest: every widget with its parent and its children. -/
def Forest.toJson (forest : Forest) : JsonValue :=
  .list
    (fun id => .array
      [id.toJson, .orNull WidgetId.toJson (forest.parent? id),
        .list WidgetId.toJson (forest.children id)])
    (forest.handedOut.filter forest.contains)

/-- What a stylist counts. -/
def Style.StyleStats.toJson (stats : StyleStats) : JsonValue :=
  .list .nat
    [stats.nodeHits, stats.sharedHits, stats.aliased, stats.built, stats.matched,
      stats.invalidated]

/-- The scheduled regions in the order of the widgets. -/
def Damage.scheduledInOrder (damage : Damage) : List (WidgetId × Region) :=
  damage.scheduled.entries.mergeSort fun a b => decide (a.1.raw ≤ b.1.raw)

/-- The damage of a window, with those of the given widgets that have a scheduled one below them.
Of the whole dirty region only the area and the bounds show. -/
def Damage.toJson (damage : Damage) (widgets : List WidgetId) : JsonValue :=
  .record
    [ ("pending", .nat damage.pending.size),
      ("clean", .bool damage.isClean),
      ("passive", .list (fun entry => .array [entry.1.toJson, entry.2.toJson])
        damage.scheduledInOrder),
      ("dirty_below", .list WidgetId.toJson (widgets.filter damage.isAbove)),
      ("area", .int damage.dirtyRegion.area),
      ("bounds", damage.dirtyRegion.boundingRect.toJson) ]

/-- An application: its windows with their damage, its widgets and the state of styling. -/
def Application.toJson (app : Application) : JsonValue :=
  .record
    [ ("debug", .text app.summary),
      ("windows", .list
        (fun id => .array
          [id.toJson,
            .orNull (fun damage => Damage.toJson damage app.forest.handedOut)
              (app.windows.find? id)])
        app.windowIds),
      ("shape", app.forest.toJson),
      ("stats", app.stylist.stats.toJson),
      ("cached", .list WidgetId.toJson (app.forest.handedOut.filter app.isStyleCached)) ]

end StyledWidgets
