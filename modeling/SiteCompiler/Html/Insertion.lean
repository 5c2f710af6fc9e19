import SiteCompiler.Html.Formatting
set_option autoImplicit false

/-! # What a token does

In each mode a token opens or closes elements, or is passed over, or is handed on to another mode.
The rules are those of the HTML standard for a document that is read by a browser with scripting
enabled, so the contents of `noscript` are text. A table always closes an open paragraph. Errors
are not reported: a token out of place does what it does in a browser.
-/

namespace SiteCompiler.Html.Construct

/-- What became of a token: it was dealt with, or another mode is to deal with it. -/
inductive Outcome where
  | done
  | again (mode : Mode)

/-- The outcome of a token that needs nothing further. -/
def finished : Construct Outcome := return .done

/-- Deals with a token, and needs nothing further. -/
def doing (action : Construct Unit) : Construct Outcome := do
  action
  return .done

/-- Leaves the token to the mode that what is open asks for. -/
def againReset : Construct Outcome := do return .again (← currentMode)

/-! ## The head -/

/-- End of a template. -/
def closeTemplate : Construct Unit := do
  if ← isOpen "template" then
    closeImplied thoroughEndNames
    popThrough ["template"]
    clearFormatting
    modify fun b => { b with templateModes := b.templateModes.drop 1 }
    resetMode

/-- Start of a template. -/
def openTemplate (tag : StartTag) : Construct Unit := do
  let _ ← openTag tag
  modify fun b =>
    { b with
      formatting := .marker :: b.formatting
      framesetOk := false
      mode := .inTemplate
      templateModes := .inTemplate :: b.templateModes }

/-- A start tag for the head of a document. -/
def headTag (tag : StartTag) : Construct Unit := do
  match tag.name with
  | "title" => openRaw tag (.rawText tag.name)
  | "noframes" | "style" | "noscript" => openRaw tag (.rawText tag.name)
  | "script" => openRaw tag .script
  | "template" => openTemplate tag
  | _ => let _ ← insertVoid tag

/-- The start tags that belong to the head and may stand elsewhere. -/
def headNames : List String :=
  ["base", "basefont", "bgsound", "link", "meta", "noframes", "script", "style", "template",
    "title"]

/-- A second `html` tag gives the root its attributes. -/
def mergeRoot (tag : StartTag) : Construct Unit := do
  if !(← isOpen "template") then
    (← root).forM fun id => addAttributes id tag.attributes

/-- The end tags that stand for the end of the head or the body. -/
def closesDocumentPart (name : String) : Bool := ["head", "body", "html", "br"].contains name

/-- Before everything. -/
def inInitial : Token → Construct Outcome
  | .blank _ | .comment => finished
  | _ => return .again .beforeHtml

/-- Before the root. -/
def inBeforeHtml : Token → Construct Outcome
  | .blank _ | .comment => finished
  | .startTag tag =>
      if tag.name = "html" then doing do
        openRoot tag.attributes
        setMode .beforeHead
      else do
        openRoot []
        return .again .beforeHead
  | .endTag name =>
      if closesDocumentPart name then do
        openRoot []
        return .again .beforeHead
      else finished
  | _ => do
      openRoot []
      return .again .beforeHead

/-- Opens the head. -/
def openHead (attributes : List (String × String)) : Construct Unit := do
  let id ← openElement "head" attributes
  modify fun b => { b with head := some id }

/-- Before the head. -/
def inBeforeHead : Token → Construct Outcome
  | .blank _ | .comment => finished
  | .startTag tag =>
      if tag.name = "html" then doing (mergeRoot tag)
      else if tag.name = "head" then doing do
        openHead tag.attributes
        setMode .inHead
      else do
        openHead []
        return .again .inHead
  | .endTag name =>
      if closesDocumentPart name then do
        openHead []
        return .again .inHead
      else finished
  | _ => do
      openHead []
      return .again .inHead

/-- In the head. -/
def inHead : Token → Construct Outcome
  | .blank _ | .comment => finished
  | .startTag tag =>
      if tag.name = "html" then doing (mergeRoot tag)
      else if tag.name = "head" then finished
      else if tag.name = "noscript" || headNames.contains tag.name then doing (headTag tag)
      else do
        pop
        return .again .afterHead
  | .endTag name =>
      if name = "head" then doing do
        pop
        setMode .afterHead
      else if name = "template" then doing closeTemplate
      else if closesDocumentPart name then do
        pop
        return .again .afterHead
      else finished
  | _ => do
      pop
      return .again .afterHead

/-- Opens a body where none was written. -/
def openBody : Construct Outcome := do
  let _ ← openElement "body" []
  return .again .inBody

/-- Deals with a tag as in the head, which is opened again for it. -/
def backInHead (tag : StartTag) : Construct Unit := do
  match (← get).head with
  | none => headTag tag
  | some head =>
      push head
      headTag tag
      removeFromStack head

/-- After the head. -/
def inAfterHead : Token → Construct Outcome
  | .blank _ | .comment => finished
  | .startTag tag =>
      if tag.name = "html" then doing (mergeRoot tag)
      else if tag.name = "body" then doing do
        let _ ← openTag tag
        noFrameset
        setMode .inBody
      else if tag.name = "frameset" then doing do
        let _ ← openTag tag
        setMode .inFrameset
      else if headNames.contains tag.name then doing (backInHead tag)
      else if tag.name = "head" then finished
      else openBody
  | .endTag name =>
      if name = "template" then doing closeTemplate
      else if ["body", "html", "br"].contains name then openBody
      else finished
  | _ => openBody

/-! ## The body -/

/-- Elements that stand as blocks of their own. -/
def blockNames : List String :=
  ["address", "article", "aside", "blockquote", "center", "details", "dialog", "dir", "div", "dl",
    "fieldset", "figcaption", "figure", "footer", "header", "hgroup", "main", "menu", "nav", "ol",
    "p", "search", "section", "summary", "ul"]

/-- Elements that format what is inside them, other than links. -/
def formattingNames : List String :=
  ["b", "big", "code", "em", "font", "i", "s", "small", "strike", "strong", "tt", "u"]

/-- Elements that keep formatting from reaching in and out. -/
def objectNames : List String := ["applet", "marquee", "object"]

/-- Whether an `input` tag is one for a hidden field. -/
def isHidden (tag : StartTag) : Bool :=
  match tag.attributes.lookup "type" with
  | some type => Text.lowercase type.toList == "hidden".toList
  | none => false

/-- Opens an element after closing an open paragraph. -/
def openBlock (tag : StartTag) : Construct Unit := do
  closeParagraphInReach
  let _ ← openTag tag

/-- Opens an element among running text. -/
def openInline (tag : StartTag) : Construct Unit := do
  reopenFormatting
  let _ ← openTag tag

/-- A second `body` tag gives the body its attributes. -/
def mergeBody (tag : StartTag) : Construct Unit := do
  match ← body with
  | some id =>
      if !(← isOpen "template") then
        noFrameset
        addAttributes id tag.attributes
  | none => return ()

/-- A frameset takes the place of a body that has nothing to show yet. -/
def replaceBody (tag : StartTag) : Construct Unit := do
  if (← get).framesetOk then
    match ← body with
    | some id =>
        modify fun b =>
          { b with forest := b.forest.detach id, stack := b.stack.getLast?.toList }
        let _ ← openTag tag
        setMode .inFrameset
    | none => return ()

/-- Start of a form; there is no form in a form. -/
def openForm (tag : StartTag) : Construct Unit := do
  let inTemplate ← isOpen "template"
  if (← get).form.isNone || inTemplate then
    closeParagraphInReach
    let id ← openTag tag
    if !inTemplate then modify fun b => { b with form := some id }

/-- End of a form. -/
def closeForm : Construct Unit := do
  if ← isOpen "template" then
    if ← hasInScope ["form"] then
      closeImplied impliedEndNames
      popThrough ["form"]
  else
    match (← get).form with
    | none => return ()
    | some form =>
        modify fun b => { b with form := none }
        if ← inScope isScope fun _ id => id == form then
          closeImplied impliedEndNames
          removeFromStack form

/-- Start of a list item or of a term or description; it ends the one before it. -/
def openItem (tag : StartTag) : Construct Unit := do
  noFrameset
  let siblings := if tag.name = "li" then ["li"] else ["dd", "dt"]
  let borders := specialNames.filter fun name => !(["address", "div", "p"].contains name)
  let b ← get
  match b.stack.find? (isHtml b.forest (siblings ++ borders)) with
  | some id =>
      if isHtml b.forest siblings id then
        let name := (b.forest.kind id).name
        closeImpliedExcept name
        popThrough [name]
  | none => pure ()
  openBlock tag

/-- A start tag in the body. -/
def bodyStartTag (tag : StartTag) : Construct Unit := do
  let name := tag.name
  if name = "html" then mergeRoot tag
  else if headNames.contains name then headTag tag
  else if name = "body" then mergeBody tag
  else if name = "frameset" then replaceBody tag
  else if blockNames.contains name then openBlock tag
  else if headingNames.contains name then
    closeParagraphInReach
    if ← currentIs headingNames then pop
    let _ ← openTag tag
  else if ["pre", "listing"].contains name then
    openBlock tag
    modify fun b => { b with skipNewline := true, framesetOk := false }
  else if name = "form" then openForm tag
  else if ["li", "dd", "dt"].contains name then openItem tag
  else if name = "plaintext" then
    openBlock tag
    modify fun b => { b with contents := .plain }
  else if name = "button" then
    if ← hasInScope ["button"] then
      closeImplied impliedEndNames
      popThrough ["button"]
    openInline tag
    noFrameset
  else if name = "a" then
    closeOuterLink
    reopenFormatting
    openFormatting tag
  else if formattingNames.contains name then
    reopenFormatting
    openFormatting tag
  else if name = "nobr" then
    reopenFormatting
    if ← hasInScope ["nobr"] then
      closeFormatting "nobr"
      reopenFormatting
    openFormatting tag
  else if objectNames.contains name then
    openInline tag
    modify fun b => { b with formatting := .marker :: b.formatting, framesetOk := false }
  else if name = "table" then
    openBlock tag
    modify fun b => { b with framesetOk := false, mode := .inTable }
  else if ["area", "br", "embed", "img", "keygen", "wbr", "input"].contains name then
    reopenFormatting
    let _ ← insertVoid tag
    if !(name == "input" && isHidden tag) then noFrameset
  else if ["param", "source", "track"].contains name then
    let _ ← insertVoid tag
  else if name = "hr" then
    closeParagraphInReach
    let _ ← insertVoid tag
    noFrameset
  else if name = "textarea" then
    openRaw tag (.rawText name)
    modify fun b => { b with skipNewline := true, framesetOk := false }
  else if name = "xmp" then
    closeParagraphInReach
    reopenFormatting
    noFrameset
    openRaw tag (.rawText name)
  else if name = "iframe" then
    noFrameset
    openRaw tag (.rawText name)
  else if ["noembed", "noscript"].contains name then openRaw tag (.rawText name)
  else if name = "select" then
    openInline tag
    modify fun b =>
      { b with
        framesetOk := false
        mode :=
          if [Mode.inTable, .inCaption, .inTableBody, .inRow, .inCell].contains b.mode then
            .inSelectInTable
          else .inSelect }
  else if ["optgroup", "option"].contains name then
    if ← currentIs ["option"] then pop
    openInline tag
  else if ["rb", "rtc"].contains name then
    if ← hasInScope ["ruby"] then closeImplied impliedEndNames
    let _ ← openTag tag
  else if ["rp", "rt"].contains name then
    if ← hasInScope ["ruby"] then closeImpliedExcept "rtc"
    let _ ← openTag tag
  else if name = "math" then
    reopenFormatting
    openForeign .mathml tag
  else if name = "svg" then
    reopenFormatting
    openForeign .svg tag
  else if ["caption", "col", "colgroup", "frame", "head", "tbody", "td", "tfoot", "th", "thead",
      "tr"].contains name then
    return ()
  else openInline tag

/-- An end tag in the body, other than those of the body and the document. -/
def bodyEndTag (name : String) : Construct Unit := do
  if name = "template" then closeTemplate
  else if name = "p" then
    if !(← hasParagraph) then
      let _ ← openElement "p" []
    closeParagraph
  else if ["button", "listing", "pre"].contains name || blockNames.contains name then
    if ← hasInScope [name] then
      closeImplied impliedEndNames
      popThrough [name]
  else if name = "form" then closeForm
  else if name = "li" then
    let stop := fun (forest : Forest) id => isScope forest id || isHtml forest ["ol", "ul"] id
    if ← inScope stop fun forest => isHtml forest ["li"] then
      closeImpliedExcept name
      popThrough [name]
  else if ["dd", "dt"].contains name then
    if ← hasInScope [name] then
      closeImpliedExcept name
      popThrough [name]
  else if headingNames.contains name then
    if ← hasInScope headingNames then
      closeImplied impliedEndNames
      popThrough headingNames
  else if name = "a" || name = "nobr" || formattingNames.contains name then closeFormatting name
  else if objectNames.contains name then
    if ← hasInScope [name] then
      closeImplied impliedEndNames
      popThrough [name]
      clearFormatting
  else if name = "br" then bodyStartTag ⟨"br", [], false⟩
  else closeOrdinary name

/-- The end of the document inside a template, which is closed. -/
def endInTemplate : Construct Outcome := do
  if ← isOpen "template" then
    popThrough ["template"]
    clearFormatting
    modify fun b => { b with templateModes := b.templateModes.drop 1 }
    resetMode
    againReset
  else finished

/-- In the body. -/
def inBody : Token → Construct Outcome
  | .null | .comment => finished
  | .blank _ => doing reopenFormatting
  | .text => doing do
      reopenFormatting
      noFrameset
  | .startTag tag =>
      doing (bodyStartTag (if tag.name = "image" then { tag with name := "img" } else tag))
  | .endTag name => do
      if name = "body" then
        if ← hasInScope ["body"] then setMode .afterBody
        finished
      else if name = "html" then
        if ← hasInScope ["body"] then return .again .afterBody else finished
      else doing (bodyEndTag name)
  | .endOfFile => do
      if (← get).templateModes.isEmpty then finished else endInTemplate

/-- In contents that are not markup. -/
def inText : Token → Construct Outcome
  | .endTag _ => doing do
      pop
      setMode (← get).returnMode
  | .endOfFile => do
      pop
      return .again (← get).returnMode
  | _ => finished

/-! ## Tables -/

/-- Deals with a token as in the body, but puts new elements before the table. -/
def fosterInBody (token : Token) : Construct Outcome := do
  modify fun b => { b with fosterParenting := true }
  let outcome ← inBody token
  modify fun b => { b with fosterParenting := false }
  return outcome

/-- The parts of a table that hold rows. -/
def sectionNames : List String := ["tbody", "tfoot", "thead"]

/-- The tags that a table is made of. -/
def tableTagNames : List String :=
  ["caption", "col", "colgroup", "tbody", "td", "tfoot", "th", "thead", "tr"]

/-- A start tag in a table. -/
def tableStartTag (tag : StartTag) : Construct Outcome := do
  let toTable := popToCurrent ["table", "template", "html"]
  let name := tag.name
  if name = "caption" then doing do
    toTable
    modify fun b => { b with formatting := .marker :: b.formatting }
    let _ ← openTag tag
    setMode .inCaption
  else if name = "colgroup" then doing do
    toTable
    let _ ← openTag tag
    setMode .inColumnGroup
  else if name = "col" then
    toTable
    let _ ← openElement "colgroup" []
    return .again .inColumnGroup
  else if sectionNames.contains name then doing do
    toTable
    let _ ← openTag tag
    setMode .inTableBody
  else if ["td", "th", "tr"].contains name then
    toTable
    let _ ← openElement "tbody" []
    return .again .inTableBody
  else if name = "table" then
    if ← hasInTableScope ["table"] then
      popThrough ["table"]
      againReset
    else finished
  else if ["style", "script", "template"].contains name then doing (headTag tag)
  else if name = "input" then
    if isHidden tag then doing do
      let _ ← insertVoid tag
    else fosterInBody (.startTag tag)
  else if name = "form" then
    if !(← isOpen "template") && (← get).form.isNone then
      let id ← insertVoid tag
      modify fun b => { b with form := some id }
    finished
  else fosterInBody (.startTag tag)

/-- Text in a table waits until it is clear whether all of it is blank. -/
def tableCharacters (token : Token) : Construct Outcome := do
  if ← currentIs tableParts then
    modify fun b => { b with returnMode := b.mode }
    return .again .inTableText
  else fosterInBody token

/-- In a table. -/
def inTable : Token → Construct Outcome
  | .comment => finished
  | .startTag tag => tableStartTag tag
  | .endTag name => do
      if name = "table" then
        if ← hasInTableScope ["table"] then
          popThrough ["table"]
          resetMode
        finished
      else if (["body", "html"] ++ tableTagNames).contains name then finished
      else if name = "template" then doing closeTemplate
      else fosterInBody (.endTag name)
  | .endOfFile => inBody .endOfFile
  | token => tableCharacters token

/-- In the text of a table. If it is not all blank it goes before the table. -/
def inTableText : Token → Construct Outcome
  | .null => finished
  | .blank chars => doing (modify fun b => { b with tableText := .blank chars :: b.tableText })
  | .text => doing (modify fun b => { b with tableText := .text :: b.tableText })
  | _ => do
      let waiting := (← get).tableText.reverse
      modify fun b => { b with tableText := [] }
      if waiting.contains .text then
        waiting.forM fun token => do
          let _ ← fosterInBody token
      return .again (← get).returnMode

/-- In the caption of a table. -/
def inCaption : Token → Construct Outcome
  | .startTag tag => do
      if tableTagNames.contains tag.name then
        if ← hasInTableScope ["caption"] then
          closeCaption
          return .again .inTable
        else finished
      else inBody (.startTag tag)
  | .endTag name => do
      if ["table", "caption"].contains name then
        if ← hasInTableScope ["caption"] then
          closeCaption
          if name = "caption" then doing (setMode .inTable) else return .again .inTable
        else finished
      else if (["body", "html"] ++ tableTagNames).contains name then finished
      else inBody (.endTag name)
  | token => inBody token
where
  /-- Closes the caption. -/
  closeCaption : Construct Unit := do
    closeImplied impliedEndNames
    popThrough ["caption"]
    clearFormatting

/-- In the columns of a table. -/
def inColumnGroup : Token → Construct Outcome
  | .blank _ | .comment => finished
  | .startTag tag =>
      if tag.name = "html" then inBody (.startTag tag)
      else if tag.name = "col" then doing do
        let _ ← insertVoid tag
      else if tag.name = "template" then doing (headTag tag)
      else leave
  | .endTag name => do
      if name = "colgroup" then
        if ← currentIs ["colgroup"] then
          pop
          setMode .inTable
        finished
      else if name = "col" then finished
      else if name = "template" then doing closeTemplate
      else leave
  | .endOfFile => inBody .endOfFile
  | _ => leave
where
  /-- Anything else ends the columns. -/
  leave : Construct Outcome := do
    if ← currentIs ["colgroup"] then
      pop
      return .again .inTable
    else finished

/-- Closes what is open inside the section of a table, and the section. -/
def closeSection : Construct Unit := do
  popToCurrent (sectionNames ++ ["template", "html"])
  pop

/-- In a section of a table. -/
def inTableBody : Token → Construct Outcome
  | .startTag tag => do
      let toSection := popToCurrent (sectionNames ++ ["template", "html"])
      if tag.name = "tr" then doing do
        toSection
        let _ ← openTag tag
        setMode .inRow
      else if ["td", "th"].contains tag.name then
        toSection
        let _ ← openElement "tr" []
        return .again .inRow
      else if tableTagNames.contains tag.name then endSection
      else inTable (.startTag tag)
  | .endTag name => do
      if sectionNames.contains name then
        if ← hasInTableScope [name] then
          closeSection
          setMode .inTable
        finished
      else if name = "table" then endSection
      else if (["body", "html"] ++ tableTagNames).contains name then finished
      else inTable (.endTag name)
  | token => inTable token
where
  /-- A tag that ends the section it stands in. -/
  endSection : Construct Outcome := do
    if ← hasInTableScope ["table", "tbody", "tfoot"] then
      closeSection
      return .again .inTable
    else finished

/-- Closes what is open inside a row, and the row. -/
def closeRow : Construct Unit := do
  popToCurrent ["tr", "template", "html"]
  pop

/-- In a row of a table. -/
def inRow : Token → Construct Outcome
  | .startTag tag => do
      if ["td", "th"].contains tag.name then doing do
        popToCurrent ["tr", "template", "html"]
        let _ ← openTag tag
        setMode .inCell
        modify fun b => { b with formatting := .marker :: b.formatting }
      else if tableTagNames.contains tag.name then endRow
      else inTable (.startTag tag)
  | .endTag name => do
      if name = "tr" then
        if ← hasInTableScope ["tr"] then
          closeRow
          setMode .inTableBody
        finished
      else if name = "table" then endRow
      else if sectionNames.contains name then
        if ← hasInTableScope [name] then endRow else finished
      else if (["body", "html"] ++ tableTagNames).contains name then finished
      else inTable (.endTag name)
  | token => inTable token
where
  /-- A tag that ends the row it stands in. -/
  endRow : Construct Outcome := do
    if ← hasInTableScope ["tr"] then
      closeRow
      return .again .inTableBody
    else finished

/-- In a cell of a table. -/
def inCell : Token → Construct Outcome
  | .startTag tag => do
      if tableTagNames.contains tag.name then
        if ← hasInTableScope ["td", "th"] then endCell else finished
      else inBody (.startTag tag)
  | .endTag name => do
      if ["td", "th"].contains name then
        if ← hasInTableScope [name] then
          closeImplied impliedEndNames
          popThrough [name]
          clearFormatting
          setMode .inRow
        finished
      else if ["body", "caption", "col", "colgroup", "html"].contains name then finished
      else if tableParts.contains name then
        if ← hasInTableScope [name] then endCell else finished
      else inBody (.endTag name)
  | token => inBody token
where
  /-- A tag that ends the cell it stands in. -/
  endCell : Construct Outcome := do
    closeImplied impliedEndNames
    popThrough ["td", "th"]
    clearFormatting
    return .again .inRow

/-! ## Choices, templates and frames -/

/-- In a `select`, which has nothing but options in it. -/
def inSelect : Token → Construct Outcome
  | .startTag tag => do
      let name := tag.name
      if name = "html" then doing (mergeRoot tag)
      else if ["option", "optgroup", "hr"].contains name then doing do
        if ← currentIs ["option"] then pop
        if name ≠ "option" then
          if ← currentIs ["optgroup"] then pop
        if name = "hr" then
          let _ ← insertVoid tag
        else
          let _ ← openTag tag
      else if name = "select" then doing closeSelect
      else if ["input", "keygen", "textarea"].contains name then
        if ← hasSelect then
          popThrough ["select"]
          againReset
        else finished
      else if ["script", "template"].contains name then doing (headTag tag)
      else finished
  | .endTag name => doing do
      if name = "optgroup" then
        let b ← get
        if ← currentIs ["option"] then
          if b.stack[1]?.any (isHtml b.forest ["optgroup"]) then pop
        if ← currentIs ["optgroup"] then pop
      else if name = "option" then
        if ← currentIs ["option"] then pop
      else if name = "select" then closeSelect
      else if name = "template" then closeTemplate
  | .endOfFile => inBody .endOfFile
  | _ => finished
where
  /-- Closes the innermost `select`. -/
  closeSelect : Construct Unit := do
    if ← hasSelect then
      popThrough ["select"]
      resetMode

/-- In a `select` in a table: a tag of the table ends it. -/
def inSelectInTable : Token → Construct Outcome
  | .startTag tag => do
      if (["caption", "td", "th"] ++ tableParts).contains tag.name then
        popThrough ["select"]
        againReset
      else inSelect (.startTag tag)
  | .endTag name => do
      if (["caption", "td", "th"] ++ tableParts).contains name then
        if ← hasInTableScope [name] then
          popThrough ["select"]
          againReset
        else finished
      else inSelect (.endTag name)
  | token => inSelect token

/-- In a template, whose contents may belong into any element. -/
def inTemplate : Token → Construct Outcome
  | .startTag tag => do
      if headNames.contains tag.name then doing (headTag tag)
      else if ["caption", "colgroup", "tbody", "tfoot", "thead"].contains tag.name then
        becoming .inTable
      else if tag.name = "col" then becoming .inColumnGroup
      else if tag.name = "tr" then becoming .inTableBody
      else if ["td", "th"].contains tag.name then becoming .inRow
      else becoming .inBody
  | .endTag name => if name = "template" then doing closeTemplate else finished
  | .endOfFile => endInTemplate
  | token => inBody token
where
  /-- The template's contents turn out to belong into an element of this mode. -/
  becoming (mode : Mode) : Construct Outcome := do
    modify fun b => { b with templateModes := mode :: b.templateModes.drop 1 }
    return .again mode

/-- After the body. -/
def inAfterBody : Token → Construct Outcome
  | .comment | .endOfFile => finished
  | .blank chars => inBody (.blank chars)
  | .startTag tag => if tag.name = "html" then doing (mergeRoot tag) else return .again .inBody
  | .endTag name => if name = "html" then doing (setMode .afterAfterBody) else return .again .inBody
  | _ => return .again .inBody

/-- In a frameset. -/
def inFrameset : Token → Construct Outcome
  | .startTag tag => do
      if tag.name = "html" then mergeRoot tag
      else if tag.name = "frameset" then
        let _ ← openTag tag
      else if tag.name = "frame" then
        let _ ← insertVoid tag
      else if tag.name = "noframes" then headTag tag
      finished
  | .endTag name => do
      if name = "frameset" && 1 < (← get).stack.length then
        pop
        if !(← currentIs ["frameset"]) then setMode .afterFrameset
      finished
  | _ => finished

/-- After a frameset. -/
def inAfterFrameset : Token → Construct Outcome
  | .startTag tag => doing do
      if tag.name = "html" then mergeRoot tag
      else if tag.name = "noframes" then headTag tag
  | .endTag name => doing do
      if name = "html" then setMode .afterAfterFrameset
  | _ => finished

/-- After the end of the document. -/
def inAfterAfterBody : Token → Construct Outcome
  | .comment | .endOfFile => finished
  | .blank chars => inBody (.blank chars)
  | .startTag tag => if tag.name = "html" then doing (mergeRoot tag) else return .again .inBody
  | _ => return .again .inBody

/-- After the end of a document with frames. -/
def inAfterAfterFrameset : Token → Construct Outcome
  | .blank chars => inBody (.blank chars)
  | .startTag tag => doing do
      if tag.name = "html" then mergeRoot tag
      else if tag.name = "noframes" then headTag tag
  | _ => finished

/-- What a token does in a mode. -/
def inMode : Mode → Token → Construct Outcome
  | .initial => inInitial
  | .beforeHtml => inBeforeHtml
  | .beforeHead => inBeforeHead
  | .inHead => inHead
  | .afterHead => inAfterHead
  | .inBody => inBody
  | .text => inText
  | .inTable => inTable
  | .inTableText => inTableText
  | .inCaption => inCaption
  | .inColumnGroup => inColumnGroup
  | .inTableBody => inTableBody
  | .inRow => inRow
  | .inCell => inCell
  | .inSelect => inSelect
  | .inSelectInTable => inSelectInTable
  | .inTemplate => inTemplate
  | .afterBody => inAfterBody
  | .inFrameset => inFrameset
  | .afterFrameset => inAfterFrameset
  | .afterAfterBody => inAfterAfterBody
  | .afterAfterFrameset => inAfterAfterFrameset

/-! ## SVG and MathML -/

/-- HTML elements whose start tag ends SVG or MathML around it. -/
def breakoutNames : List String :=
  ["b", "big", "blockquote", "body", "br", "center", "code", "dd", "div", "dl", "dt", "em",
    "embed", "h1", "h2", "h3", "h4", "h5", "h6", "head", "hr", "i", "img", "li", "listing", "menu",
    "meta", "nobr", "ol", "p", "pre", "ruby", "s", "small", "span", "strong", "strike", "sub",
    "sup", "table", "tt", "u", "ul", "var"]

/-- Whether a start tag ends SVG or MathML around it. -/
def breaksOut (tag : StartTag) : Bool :=
  breakoutNames.contains tag.name
    || (tag.name == "font"
      && tag.attributes.any fun a => ["color", "face", "size"].contains a.1)

/-- Whether a token is read by the rules for SVG and MathML. -/
def isForeign (b : Builder) (token : Token) : Bool :=
  match b.stack.head? with
  | none => false
  | some id =>
      let kind := b.forest.kind id
      let isAnnotationXml := kind.vocabulary == .mathml && kind.name == "annotation-xml"
      if kind.vocabulary = .html then false
      else
        match token with
        | .endOfFile => false
        | .startTag tag =>
            if isMathTextPoint kind && !(["mglyph", "malignmark"].contains tag.name) then false
            else if isSvgHtmlPoint kind then false
            else if isAnnotationXml then tag.name != "svg" && !annotatesInHtml kind
            else true
        | .text | .blank _ | .null =>
            !(isMathTextPoint kind || isSvgHtmlPoint kind
              || (isAnnotationXml && annotatesInHtml kind))
        | _ => true

/-- Closes SVG and MathML elements down to one whose contents are HTML, and reads on there. -/
def leaveForeign : Construct Outcome := do
  modify fun b =>
    { b with
      stack := b.stack.dropWhile fun id =>
        let kind := b.forest.kind id
        !(kind.vocabulary == .html || isMathTextPoint kind || isSvgHtmlPoint kind) }
  return .again (← get).mode

/-- An end tag in SVG or MathML: it closes the innermost element of its name, unless an HTML
element is inside it. `isFirst` tells whether `stack` is all that is open. -/
def foreignEndTag (forest : Forest) (name : String) (isFirst : Bool) :
    List ElementId → Option (List ElementId)
  | [] => some []
  | [_] => some []
  | id :: outer =>
      let kind := forest.kind id
      if !isFirst && kind.vocabulary == .html then none
      else if Text.lowercase kind.name.toList == Text.lowercase name.toList then some outer
      else foreignEndTag forest name false outer

/-- What a token does in SVG or MathML. -/
def inForeign : Token → Construct Outcome
  | .text => doing noFrameset
  | .startTag tag => do
      if breaksOut tag then leaveForeign
      else
        let b ← get
        let vocabulary := (b.stack.head?.map fun id => (b.forest.kind id).vocabulary).getD .html
        openForeign vocabulary tag
        finished
  | .endTag name => do
      if ["br", "p"].contains name then leaveForeign
      else
        let b ← get
        match foreignEndTag b.forest name true b.stack with
        | none => inMode b.mode (.endTag name)
        | some [] => finished
        | some outer => doing (modify fun b => { b with stack := outer })
  | _ => finished

/-! ## Reading a document -/

/-- Deals with a token, handing it from mode to mode at most `steps` times. -/
def dispatch (token : Token) : Nat → Construct Unit
  | 0 => return ()
  | steps + 1 => do
      let b ← get
      match ← if isForeign b token then inForeign token else inMode b.mode token with
      | .done => return ()
      | .again mode =>
          setMode mode
          dispatch token steps

/-- More steps than a token is handed on: each closes an element or moves on to another part of
the document. -/
def stepBound (b : Builder) : Nat := 4 * (b.stack.length + b.templateModes.length) + 40

/-- Deals with a token. A line end right after some start tags counts for nothing. -/
def consume (token : Token) : Construct Unit := do
  let b ← get
  modify fun b => { b with skipNewline := false }
  match token with
  | .blank ('\n' :: chars) =>
      let chars := if b.skipNewline then chars else '\n' :: chars
      if !chars.isEmpty then dispatch (.blank chars) (stepBound b)
  | _ => dispatch token (stepBound b)

/-- Whether the innermost open element is an SVG or MathML element. -/
def insideForeign (b : Builder) : Bool :=
  b.stack.head?.any fun id => (b.forest.kind id).vocabulary != .html

/-- Reads a text to its end, in at most `steps` steps. -/
def readAll : Nat → List Char → Construct Unit
  | 0, _ => return ()
  | _ + 1, [] => return ()
  | steps + 1, c :: cs => do
      let (tokens, rest) := Token.read (insideForeign (← get)) (c :: cs)
      tokens.forM consume
      let contents := (← get).contents
      modify fun b => { b with contents := .markup }
      readAll steps (contents.skip rest)

end SiteCompiler.Html.Construct

namespace SiteCompiler.Html

/-- What a document may begin with that is no part of it. -/
def byteOrderMark : Char := '\uFEFF'

/-- The elements of a document. -/
def parse (html : String) : List Node :=
  let cs := if html.toList.head? = some byteOrderMark then html.toList.drop 1 else html.toList
  let text := Token.normalizeNewlines cs
  let reading : Construct Unit := do
    Construct.readAll (text.length + 1) text
    Construct.consume .endOfFile
  (reading.run Builder.start).2.forest.nodes

end SiteCompiler.Html
