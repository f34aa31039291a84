import Mathlib.Data.List.Basic

/-!
# `WatchedAgent.Lib.Html`: the tags of an HTML text

The tokenizer of the HTML standard as a machine over characters, with the tags it emits and
their attributes. Comments, the document type and the text between tags are passed over, and
character references stay as they are, since none of them ends or starts a tag. After the start
tag of a `script`, a `title` and the like the text is raw, up to the end tag of that name. Texts
of foreign content (`svg` and `math`) are read like the others.

* `read_append`: a text is read in parts.
* `Same`: two texts that are read from outside to outside, with the same tags. Texts are put
  together from such parts (`Same.append`).
* `Alike`: two texts that may stand between two tags. `Same.text` puts them there.
* `alike_of_inert`: texts in which no `<` starts a tag, a comment or a declaration.
-/

set_option autoImplicit false

namespace WatchedAgent.Lib.Html

/-! ### The tokenizer -/

/-- A tag. -/
structure Tag where
  closing : Bool := false
  name : List Char := []
  attributes : List (List Char × List Char) := []
  selfClosing : Bool := false
  deriving DecidableEq

/-- The tag with one more attribute. The second one of a name is dropped. -/
def Tag.add (t : Tag) (name value : List Char) : Tag :=
  if t.attributes.any (fun a => a.1 == name) then t
  else { t with attributes := t.attributes ++ [(name, value)] }

/-- How far a script is inside a `<!--`, and inside a `<script` there. -/
inductive Escape where
  | plain | escaped | doubled
  deriving DecidableEq

/-- The states of the tokenizer. -/
inductive State where
  | data
  | tagOpen
  | endTagOpen
  | tagName (t : Tag)
  | beforeAttributeName (t : Tag)
  | attributeName (t : Tag) (name : List Char)
  | afterAttributeName (t : Tag) (name : List Char)
  | beforeAttributeValue (t : Tag) (name : List Char)
  | attributeValue (quote : Option Char) (t : Tag) (name value : List Char)
  | afterAttributeValue (t : Tag)
  | selfClosingStartTag (t : Tag)
  | markupDeclarationOpen (dash : Bool)
  | bogusComment
  | commentStart (dash : Bool)
  | comment (dashes : Nat)
  | commentEndBang
  | plaintext
  | raw (name : List Char) (escape : Escape) (dashes : Nat)
  | rawLessThan (name : List Char) (escape : Escape)
  | rawEndTagOpen (name : List Char) (escape : Escape)
  | rawEndTagName (name : List Char) (escape : Escape) (buffer : List Char)
  | escapeStart (name : List Char) (dash : Bool)
  | doubleEscape (name : List Char) (escape : Escape) (buffer : List Char)
  deriving DecidableEq

/-- White space in a tag. -/
def isBlank (c : Char) : Bool := c = ' ' || c = '\t' || c = '\n' || c = '\r' || c = '\x0c'

/-- The elements with raw text. -/
def rawNames : List (List Char) :=
  ["script".toList, "style".toList, "title".toList, "textarea".toList, "xmp".toList,
    "iframe".toList, "noembed".toList, "noframes".toList, "noscript".toList]

/-- The state after a start tag. -/
def afterStartTag (name : List Char) : State :=
  if name = "plaintext".toList then .plaintext
  else if name ∈ rawNames then .raw name .plain 0
  else .data

/-- A tag is complete. -/
def emit (t : Tag) : State × List Tag := (if t.closing then .data else afterStartTag t.name, [t])

/-- A character of raw text. -/
def nextRaw (name : List Char) (escape : Escape) (dashes : Nat) (c : Char) : State :=
  if c = '<' then .rawLessThan name escape
  else if escape = .plain then .raw name .plain 0
  else if c = '-' then .raw name escape (min (dashes + 1) 2)
  -- `-->` ends the escape.
  else if c = '>' ∧ dashes = 2 then .raw name .plain 0
  else .raw name escape 0

/-- A character before the name of an attribute. -/
def nextBeforeAttributeName (t : Tag) (c : Char) : State × List Tag :=
  if isBlank c then (.beforeAttributeName t, [])
  else if c = '/' then (.selfClosingStartTag t, [])
  else if c = '>' then emit t
  else (.attributeName t [c.toLower], [])

/-- A character of a comment. -/
def nextComment (dashes : Nat) (c : Char) : State :=
  if c = '-' then .comment (min (dashes + 1) 2)
  else if dashes = 2 ∧ c = '>' then .data
  else if dashes = 2 ∧ c = '!' then .commentEndBang
  else .comment 0

/-- A step of the tokenizer: the next state, and the tag that the character completes. -/
def next : State → Char → State × List Tag
  | .data, c => if c = '<' then (.tagOpen, []) else (.data, [])
  | .tagOpen, c =>
      if c = '!' then (.markupDeclarationOpen false, [])
      else if c = '/' then (.endTagOpen, [])
      else if c = '?' then (.bogusComment, [])
      else if c.isAlpha then (.tagName { name := [c.toLower] }, [])
      else if c = '<' then (.tagOpen, [])
      else (.data, [])
  | .endTagOpen, c =>
      if c.isAlpha then (.tagName { closing := true, name := [c.toLower] }, [])
      else if c = '>' then (.data, [])
      else (.bogusComment, [])
  | .tagName t, c =>
      if isBlank c then (.beforeAttributeName t, [])
      else if c = '/' then (.selfClosingStartTag t, [])
      else if c = '>' then emit t
      else (.tagName { t with name := t.name ++ [c.toLower] }, [])
  | .beforeAttributeName t, c => nextBeforeAttributeName t c
  | .attributeName t name, c =>
      if isBlank c then (.afterAttributeName t name, [])
      else if c = '/' then (.selfClosingStartTag (t.add name []), [])
      else if c = '>' then emit (t.add name [])
      else if c = '=' then (.beforeAttributeValue t name, [])
      else (.attributeName t (name ++ [c.toLower]), [])
  | .afterAttributeName t name, c =>
      if isBlank c then (.afterAttributeName t name, [])
      else if c = '/' then (.selfClosingStartTag (t.add name []), [])
      else if c = '=' then (.beforeAttributeValue t name, [])
      else if c = '>' then emit (t.add name [])
      else (.attributeName (t.add name []) [c.toLower], [])
  | .beforeAttributeValue t name, c =>
      if isBlank c then (.beforeAttributeValue t name, [])
      -- The double and the single quote.
      else if c = '\x22' ∨ c = '\x27' then (.attributeValue (some c) t name [], [])
      else if c = '>' then emit (t.add name [])
      else (.attributeValue none t name [c], [])
  | .attributeValue (some quote) t name value, c =>
      if c = quote then (.afterAttributeValue (t.add name value), [])
      else (.attributeValue (some quote) t name (value ++ [c]), [])
  | .attributeValue none t name value, c =>
      if isBlank c then (.beforeAttributeName (t.add name value), [])
      else if c = '>' then emit (t.add name value)
      else (.attributeValue none t name (value ++ [c]), [])
  | .afterAttributeValue t, c => nextBeforeAttributeName t c
  | .selfClosingStartTag t, c =>
      if c = '>' then emit { t with selfClosing := true } else nextBeforeAttributeName t c
  | .markupDeclarationOpen dash, c =>
      if c = '-' then (if dash then .commentStart false else .markupDeclarationOpen true, [])
      else if c = '>' then (.data, [])
      -- A document type ends at the first `>`, like a comment that is none.
      else (.bogusComment, [])
  | .bogusComment, c => (if c = '>' then .data else .bogusComment, [])
  | .commentStart dash, c =>
      if c = '-' then (if dash then .comment 2 else .commentStart true, [])
      else if c = '>' then (.data, [])
      else (.comment 0, [])
  | .comment dashes, c => (nextComment dashes c, [])
  | .commentEndBang, c =>
      (if c = '-' then .comment 1 else if c = '>' then .data else .comment 0, [])
  | .plaintext, _ => (.plaintext, [])
  | .raw name escape dashes, c => (nextRaw name escape dashes c, [])
  | .rawLessThan name escape, c =>
      -- In a doubled escape an end tag only takes the text back to the single one.
      if c = '/' then
        (if escape = .doubled then .doubleEscape name escape [] else .rawEndTagOpen name escape, [])
      else if c = '!' ∧ escape = .plain ∧ name = "script".toList then (.escapeStart name false, [])
      else if c.isAlpha ∧ escape = .escaped then (.doubleEscape name escape [c.toLower], [])
      else (nextRaw name escape 0 c, [])
  | .rawEndTagOpen name escape, c =>
      if c.isAlpha then (.rawEndTagName name escape [c.toLower], [])
      else (nextRaw name escape 0 c, [])
  | .rawEndTagName name escape buffer, c =>
      let t : Tag := { closing := true, name }
      if buffer = name ∧ isBlank c then (.beforeAttributeName t, [])
      else if buffer = name ∧ c = '/' then (.selfClosingStartTag t, [])
      else if buffer = name ∧ c = '>' then emit t
      else if c.isAlpha then (.rawEndTagName name escape (buffer ++ [c.toLower]), [])
      else (nextRaw name escape 0 c, [])
  | .escapeStart name dash, c =>
      if c = '-' then (if dash then .raw name .escaped 2 else .escapeStart name true, [])
      else (nextRaw name .plain 0 c, [])
  | .doubleEscape name escape buffer, c =>
      if isBlank c ∨ c = '/' ∨ c = '>' then
        let flipped : Escape := if escape = .doubled then .escaped else .doubled
        (.raw name (if buffer = "script".toList then flipped else escape) 0, [])
      else if c.isAlpha then (.doubleEscape name escape (buffer ++ [c.toLower]), [])
      else (nextRaw name escape 0 c, [])

/-- A text is read: the state after it, and its tags. -/
def read : State → List Char → State × List Tag
  | s, [] => (s, [])
  | s, c :: cs =>
      let (s, ts) := next s c
      let (s, us) := read s cs
      (s, ts ++ us)

/-- The tags of a page. A tag that the end of the text cuts off is none. -/
def tags (text : String) : List Tag := (read .data text.toList).2

/-! ### Parts of a page -/

/-- A text is read in parts. -/
theorem read_append (s : State) (a b : List Char) : read s (a ++ b)
    = ((read (read s a).1 b).1, (read s a).2 ++ (read (read s a).1 b).2) := by
  induction a generalizing s with
  | nil => rfl
  | cons c a ih =>
      show ((read (next s c).1 (a ++ b)).1, (next s c).2 ++ (read (next s c).1 (a ++ b)).2) = _
      rw [ih]
      show _ = (_, ((next s c).2 ++ (read (next s c).1 a).2) ++ _)
      rw [List.append_assoc]
      rfl

/-- The tags of a text come first, whatever follows it. -/
theorem tags_append (a b : String) :
    tags (a ++ b) = tags a ++ (read (read .data a.toList).1 b.toList).2 := by
  unfold tags
  rw [String.toList_append, read_append]

/-- Markup that is read from outside of a tag to outside of a tag. -/
def Closed (text : String) : Prop := (read .data text.toList).1 = .data

instance (text : String) : Decidable (Closed text) :=
  inferInstanceAs (Decidable ((read .data text.toList).1 = .data))

/-- A text is closed by its characters. -/
theorem Closed.of_chars {cs : List Char} (h : (read .data cs).1 = .data) :
    Closed (String.ofList cs) := by
  unfold Closed
  rw [String.toList_ofList]
  exact h

theorem Closed.of_append {cs ds : List Char} (h : (read .data (cs ++ ds)).1 = .data) :
    Closed (String.ofList cs ++ String.ofList ds) := by
  unfold Closed
  rw [String.toList_append, String.toList_ofList, String.toList_ofList]
  exact h

/-- A closed text, and what follows it. -/
theorem read_closed_append {a : String} (h : Closed a) (b : String) :
    read .data (a ++ b).toList
      = ((read .data b.toList).1, tags a ++ tags b) := by
  rw [String.toList_append, read_append, show (read .data a.toList).1 = .data from h]
  rfl

theorem Closed.tags_append {a : String} (h : Closed a) (b : String) :
    tags (a ++ b) = tags a ++ tags b := congrArg Prod.snd (read_closed_append h b)

theorem Closed.append {a b : String} (ha : Closed a) (hb : Closed b) : Closed (a ++ b) :=
  (congrArg Prod.fst (read_closed_append ha b)).trans hb

/-- Two closed texts with the same tags. -/
structure Same (a b : String) : Prop where
  left : Closed a
  right : Closed b
  tags : tags a = tags b

theorem Same.of_closed {a : String} (h : Closed a) : Same a a := ⟨h, h, rfl⟩

theorem Same.append {a a' b b' : String} (ha : Same a a') (hb : Same b b') :
    Same (a ++ b) (a' ++ b') where
  left := ha.left.append hb.left
  right := ha.right.append hb.right
  tags := by rw [ha.left.tags_append, ha.right.tags_append, ha.tags, hb.tags]

/-- The same markup on both sides. -/
theorem Same.const {a a' c : String} (ha : Same a a') (hc : Closed c) : Same (a ++ c) (a' ++ c) :=
  ha.append (.of_closed hc)

theorem Same.join {l l' : List String} (h : List.Forall₂ Same l l') :
    Same (String.join l) (String.join l') := by
  -- `join` folds from the left, so the induction is for all texts before the parts.
  have hfold : ∀ {l l' : List String}, List.Forall₂ Same l l' → ∀ {a a' : String}, Same a a' →
      Same (l.foldl (· ++ ·) a) (l'.foldl (· ++ ·) a') := by
    intro l l' h
    induction h with
    | nil => exact fun ha => ha
    | cons hb hl ih => exact fun ha => ih (ha.append hb)
  exact hfold h (.of_closed rfl)

/-! ### Texts between tags -/

/-- A text that ends outside of a tag. A `<` may be its last character. -/
def EndsOutside (text : String) : Prop :=
  (read .data text.toList).1 = .data ∨ (read .data text.toList).1 = .tagOpen

instance (text : String) : Decidable (EndsOutside text) :=
  inferInstanceAs (Decidable ((read .data text.toList).1 = .data
    ∨ (read .data text.toList).1 = .tagOpen))

/-- Two such texts with the same tags. -/
structure Alike (a b : String) : Prop where
  left : EndsOutside a
  right : EndsOutside b
  tags : tags a = tags b

theorem Alike.of_endsOutside {a : String} (h : EndsOutside a) : Alike a a := ⟨h, h, rfl⟩

/-- Markup that starts with a tag. -/
def Tail (text : String) : Prop := Closed text ∧ text.toList.head? = some '<'

instance (text : String) : Decidable (Tail text) :=
  inferInstanceAs (Decidable (Closed text ∧ text.toList.head? = some '<'))

/-- Markup that starts with a tag, by its characters. -/
theorem Tail.of_chars {cs : List Char} (h : (read .data ('<' :: cs)).1 = .data) :
    Tail (String.ofList ('<' :: cs)) :=
  ⟨.of_chars h, by rw [String.toList_ofList, List.head?_cons]⟩

/-- The tag after such a text is read as without it. -/
theorem read_endsOutside_append {a c : String} (ha : EndsOutside a) (hc : Tail c) :
    read .data (a ++ c).toList = (.data, tags a ++ tags c) := by
  obtain ⟨cs, hcs⟩ : ∃ cs, c.toList = '<' :: cs := by
    cases hlist : c.toList with
    | nil => exact absurd hc.2 (by rw [hlist]; exact nofun)
    | cons x cs =>
        have hx := hc.2
        rw [hlist, List.head?_cons, Option.some_inj] at hx
        exact ⟨cs, by rw [hx]⟩
  have hstart : read (read .data a.toList).1 c.toList = read .data c.toList := by
    rcases ha with h | h
    · rw [h]
    · rw [h, hcs]
      rfl
  rw [String.toList_append, read_append, hstart, show (read .data c.toList).1 = .data from hc.1]
  rfl

/-- A text and the tag after it. -/
theorem Same.text {a a' c : String} (h : Alike a a') (hc : Tail c) : Same (a ++ c) (a' ++ c) where
  left := congrArg Prod.fst (read_endsOutside_append h.left hc)
  right := congrArg Prod.fst (read_endsOutside_append h.right hc)
  tags := by
    unfold Html.tags
    rw [read_endsOutside_append h.left hc, read_endsOutside_append h.right hc, h.tags]

/-- A text between markup. -/
theorem Same.cell {p p' a a' c : String} (hp : Same p p') (h : Alike a a') (hc : Tail c) :
    Same (p ++ a ++ c) (p' ++ a' ++ c) := by
  rw [String.append_assoc, String.append_assoc]
  exact hp.append (.text h hc)

/-! ### Texts without markup -/

/-- After a `<` these start a tag, a comment or a declaration. -/
def startsMarkup (c : Char) : Bool := c.isAlpha || c = '/' || c = '!' || c = '?'

/-- No `<` starts markup. -/
def inert : List Char → Bool
  | [] => true
  | c :: cs => (c != '<' || cs.head?.all (fun d => !startsMarkup d)) && inert cs

theorem inert_of_not_mem {cs : List Char} (h : '<' ∉ cs) : inert cs = true := by
  induction cs with
  | nil => rfl
  | cons c cs ih =>
      obtain ⟨hne, hrest⟩ := not_or.mp fun hor => h (List.mem_cons.mpr hor)
      have hc : (c != '<') = true := bne_iff_ne.mpr (Ne.symm hne)
      unfold inert
      rw [hc, Bool.true_or, Bool.true_and, ih hrest]

theorem next_tagOpen {c : Char} (h : startsMarkup c = false) :
    next .tagOpen c = next .data c := by
  unfold startsMarkup at h
  simp only [Bool.or_eq_false_iff, decide_eq_false_iff_not] at h
  obtain ⟨⟨⟨halpha, hslash⟩, hbang⟩, hquestion⟩ := h
  show (if c = '!' then _ else _) = _
  rw [if_neg hbang, if_neg hslash, if_neg hquestion, halpha]
  rfl

/-- The tokenizer passes over such a text, also after a `<`. -/
theorem read_of_inert {cs : List Char} (h : inert cs = true) :
    (∃ s, (s = .data ∨ s = .tagOpen) ∧ read .data cs = (s, [])) ∧
      (cs.head?.all (fun d => !startsMarkup d) = true →
        ∃ s, (s = .data ∨ s = .tagOpen) ∧ read .tagOpen cs = (s, [])) := by
  -- Both states at once: a `<` leads from the one to the other.
  induction cs with
  | nil => exact ⟨⟨.data, .inl rfl, rfl⟩, fun _ => ⟨.tagOpen, .inr rfl, rfl⟩⟩
  | cons c cs ih =>
      obtain ⟨hfirst, hrest⟩ := (Bool.and_eq_true _ _).mp h
      have hdata : ∃ s, (s = State.data ∨ s = .tagOpen) ∧ read .data (c :: cs) = (s, []) := by
        by_cases hc : c = '<'
        · subst hc
          obtain ⟨s, hs, hread⟩ := (ih hrest).2 hfirst
          refine ⟨s, hs, ?_⟩
          show ((read .tagOpen cs).1, [] ++ (read .tagOpen cs).2) = _
          rw [hread]
          rfl
        · obtain ⟨s, hs, hread⟩ := (ih hrest).1
          have hstep : next .data c = (.data, []) := if_neg hc
          refine ⟨s, hs, ?_⟩
          show ((read (next .data c).1 cs).1, (next .data c).2 ++ (read (next .data c).1 cs).2) = _
          rw [hstep, hread]
          rfl
      refine ⟨hdata, fun hhead => ?_⟩
      have hc : startsMarkup c = false := by simpa using hhead
      obtain ⟨s, hs, hread⟩ := hdata
      refine ⟨s, hs, ?_⟩
      show ((read (next .tagOpen c).1 cs).1, (next .tagOpen c).2 ++ (read (next .tagOpen c).1 cs).2)
        = _
      rw [next_tagOpen hc]
      exact hread

/-- Two texts without markup. -/
theorem alike_of_inert {a b : String} (ha : inert a.toList = true) (hb : inert b.toList = true) :
    Alike a b := by
  obtain ⟨s, hs, hreada⟩ := (read_of_inert ha).1
  obtain ⟨t, ht, hreadb⟩ := (read_of_inert hb).1
  refine ⟨?_, ?_, ?_⟩
  · unfold EndsOutside
    rw [hreada]
    exact hs
  · unfold EndsOutside
    rw [hreadb]
    exact ht
  · unfold tags
    rw [hreada, hreadb]

end WatchedAgent.Lib.Html
