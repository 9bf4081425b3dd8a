import Mathlib.Data.List.Infix
import Mathlib.Tactic.Cases
/-!
# The options of a select element

Markup is read the way the HTML standard's tokenizer does it, with its states
that read a character alike taken together, and with one simplification: every
`<` in text opens a tag, whatever follows it. A tag the markup ends in is
dropped. `optionElements` are the `option` elements found, and `tagStructure`
the tags.

Which character references there are is a parameter: `CharacterReferences` asks
for `&amp;` and `&quot;` in attributes, and that none is shorter than what it
stands for.
-/

namespace Lib.Html

/-! ## Tokens -/

structure Tag where
  closing : Bool := false
  name : List Char := []
  attributes : List (List Char × List Char) := []
  deriving DecidableEq, Repr

def Tag.push (tag : Tag) (name value : List Char) : Tag := { tag with attributes := tag.attributes ++ [(name, value)] }

inductive Token where
  | text (t : List Char)
  | tag (tag : Tag)
  deriving DecidableEq, Repr

inductive State where
  | data (text : List Char)
  | tagOpen
  | tagName (tag : Tag)
  /-- An attribute may begin: behind the name, a value, or a slash. -/
  | attributes (tag : Tag)
  | attributeName (tag : Tag) (name : List Char)
  | afterAttributeName (tag : Tag) (name : List Char)
  | beforeAttributeValue (tag : Tag) (name : List Char)
  | quoted (quote : Char) (tag : Tag) (name value : List Char)
  | unquoted (tag : Tag) (name value : List Char)

def isSpace (c : Char) : Bool := c = ' ' || c = '\t' || c = '\n' || c = '\x0c'

def emit (tag : Tag) : State × Option Token := (.data [], some (.tag tag))

def inTagName (tag : Tag) (c : Char) : State × Option Token :=
  if isSpace c || c = '/' then (.attributes tag, none)
  else if c = '>' then emit tag
  else (.tagName { tag with name := tag.name ++ [c.toLower] }, none)

def inAttributes (tag : Tag) (c : Char) : State × Option Token :=
  if isSpace c || c = '/' then (.attributes tag, none)
  else if c = '>' then emit tag
  else (.attributeName tag [c.toLower], none)

/-- The next state, and the token that is complete. -/
def step : State → Char → State × Option Token
  | .data text, c => if c = '<' then (.tagOpen, some (.text text)) else (.data (text ++ [c]), none)
  | .tagOpen, c => if c = '/' then (.tagName { closing := true }, none) else inTagName {} c
  | .tagName tag, c => inTagName tag c
  | .attributes tag, c => inAttributes tag c
  | .attributeName tag name, c =>
    if isSpace c then (.afterAttributeName tag name, none)
    else if c = '/' then (.attributes (tag.push name []), none)
    else if c = '>' then emit (tag.push name [])
    else if c = '=' then (.beforeAttributeValue tag name, none)
    else (.attributeName tag (name ++ [c.toLower]), none)
  | .afterAttributeName tag name, c =>
    if isSpace c then (.afterAttributeName tag name, none)
    else if c = '=' then (.beforeAttributeValue tag name, none)
    else inAttributes (tag.push name []) c
  | .beforeAttributeValue tag name, c =>
    if isSpace c then (.beforeAttributeValue tag name, none)
    else if c = '"' || c = '\'' then (.quoted c tag name [], none)
    else if c = '>' then emit (tag.push name [])
    else (.unquoted tag name [c], none)
  | .quoted quote tag name value, c =>
    if c = quote then (.attributes (tag.push name value), none) else (.quoted quote tag name (value ++ [c]), none)
  | .unquoted tag name value, c =>
    if isSpace c then (.attributes (tag.push name value), none)
    else if c = '>' then emit (tag.push name value)
    else (.unquoted tag name (value ++ [c]), none)

def tokenize : State → List Char → List Token
  | .data text, [] => [.text text]
  | _, [] => []
  | s, c :: rest => (step s c).2.toList ++ tokenize (step s c).1 rest

def tokens (markup : List Char) : List Token := tokenize (.data []) markup

/-! ## Character references -/

/-- What follows an `&` may make it a reference: to these characters, with so
many characters of its own. -/
abbrev Reference := List Char → Option (List Char × Nat)

/-- The text with its references replaced; `skip` characters belong to one. -/
def decode (reference : Reference) : (skip : Nat) → List Char → List Char
  | _, [] => []
  | skip + 1, _ :: rest => decode reference skip rest
  | 0, c :: rest =>
    if c = '&' then
      match reference rest with
      | some (characters, n) => characters ++ decode reference n rest
      | none => '&' :: decode reference 0 rest
    else c :: decode reference 0 rest

structure CharacterReferences where
  inText : Reference
  inAttribute : Reference
  amp : ∀ rest, inAttribute ('a' :: 'm' :: 'p' :: ';' :: rest) = some (['&'], 4)
  quot : ∀ rest, inAttribute ('q' :: 'u' :: 'o' :: 't' :: ';' :: rest) = some (['"'], 5)
  shorter : ∀ rest characters n, inText rest = some (characters, n) → characters.length ≤ n ∧ n ≤ rest.length

/-- The references a document cannot do without. -/
def basicReference : Reference
  | 'a' :: 'm' :: 'p' :: ';' :: _ => some (['&'], 4)
  | 'l' :: 't' :: ';' :: _ => some (['<'], 3)
  | 'g' :: 't' :: ';' :: _ => some (['>'], 3)
  | 'q' :: 'u' :: 'o' :: 't' :: ';' :: _ => some (['"'], 5)
  | _ => none

def basicReferences : CharacterReferences where
  inText := basicReference
  inAttribute := basicReference
  amp _ := rfl
  quot _ := rfl
  shorter rest characters n h := by
    unfold basicReference at h
    split at h
    all_goals first
      | cases h
        simp only [List.length_cons, List.length_nil]
        omega
      | cases h

/-! ## Options -/

def optionName : List Char := ['o', 'p', 't', 'i', 'o', 'n']

def valueName : List Char := ['v', 'a', 'l', 'u', 'e']

structure OptionElement where
  /-- The `value` attribute, decoded. -/
  valueAttribute : Option (List Char)
  text : List Char
  deriving DecidableEq

def OptionElement.value (o : OptionElement) : List Char := o.valueAttribute.getD o.text

variable (references : CharacterReferences)

def openOption (tag : Tag) : OptionElement :=
  ⟨(tag.attributes.lookup valueName).map (decode references.inAttribute 0), []⟩

/-- The elements, with the one that is open. A tag of another name leaves it open. -/
def optionElements : List Token → Option OptionElement → List OptionElement
  | [], current => current.toList
  | .text t :: rest, current =>
    optionElements rest (current.map fun o => { o with text := o.text ++ decode references.inText 0 t })
  | .tag tag :: rest, current =>
    if tag.name = optionName then
      current.toList ++ optionElements rest (if tag.closing then none else some (openOption references tag))
    else optionElements rest current

/-- The tags, each with its kind and its name. -/
def tagStructure (ts : List Token) : List (Bool × List Char) :=
  ts.filterMap fun token =>
    match token with
    | .tag tag => some (tag.closing, tag.name)
    | .text _ => none

def optionTags (n : Nat) : List (Bool × List Char) :=
  (List.replicate n [(false, optionName), (true, optionName)]).flatten

/-! ## Reading markup -/

theorem tokenize_cons (s : State) (c : Char) (rest : List Char) :
    tokenize s (c :: rest) = (step s c).2.toList ++ tokenize (step s c).1 rest := by
  cases s <;> rfl

/-- Text runs up to the next `<`. -/
theorem tokenize_text {t : List Char} (ht : '<' ∉ t) (read rest : List Char) :
    tokenize (.data read) (t ++ '<' :: rest) = .text (read ++ t) :: tokenize .tagOpen rest := by
  induction t generalizing read with
  | nil => simp [tokenize_cons, step]
  | cons c t ih =>
    rw [List.mem_cons, not_or] at ht
    have hstep : step (.data read) c = (.data (read ++ [c]), none) := if_neg (Ne.symm ht.1)
    rw [List.cons_append, tokenize_cons, hstep, ih ht.2, List.append_assoc, List.singleton_append]
    rfl

/-- A name of characters that stand for themselves and end no name. -/
def PlainName (name : List Char) : Prop :=
  ∀ c ∈ name, isSpace c = false ∧ c ≠ '/' ∧ c ≠ '>' ∧ c ≠ '=' ∧ c.toLower = c

instance (name : List Char) : Decidable (PlainName name) := List.decidableBAll _ name

theorem tokenize_tagName {name : List Char} (h : PlainName name) (tag : Tag) (rest : List Char) :
    tokenize (.tagName tag) (name ++ rest) = tokenize (.tagName { tag with name := tag.name ++ name }) rest := by
  induction name generalizing tag with
  | nil => simp
  | cons c name ih =>
    obtain ⟨⟨hspace, hslash, hclose, -, hlower⟩, hname⟩ := List.forall_mem_cons.1 h
    have hstep : step (.tagName tag) c = (.tagName { tag with name := tag.name ++ [c] }, none) := by
      simp [step, inTagName, hspace, hslash, hclose, hlower]
    rw [List.cons_append, tokenize_cons, hstep]
    refine (ih hname _).trans ?_
    simp

theorem tokenize_tagOpen {name : List Char} (h : PlainName name) (hne : name ≠ []) (rest : List Char) :
    tokenize .tagOpen (name ++ rest) = tokenize (.tagName { name }) rest := by
  obtain ⟨c, name, rfl⟩ := List.exists_cons_of_ne_nil hne
  obtain ⟨⟨hspace, hslash, hclose, -, hlower⟩, hname⟩ := List.forall_mem_cons.1 h
  have hstep : step .tagOpen c = (.tagName { name := [c] }, none) := by
    simp [step, inTagName, hspace, hslash, hclose, hlower]
  rw [List.cons_append, tokenize_cons, hstep]
  exact tokenize_tagName hname _ rest

theorem tokenize_attributeName {name : List Char} (h : PlainName name) (tag : Tag) (read rest : List Char) :
    tokenize (.attributeName tag read) (name ++ rest) = tokenize (.attributeName tag (read ++ name)) rest := by
  induction name generalizing read with
  | nil => simp
  | cons c name ih =>
    obtain ⟨⟨hspace, hslash, hclose, hequals, hlower⟩, hname⟩ := List.forall_mem_cons.1 h
    have hstep : step (.attributeName tag read) c = (.attributeName tag (read ++ [c]), none) := by
      simp [step, hspace, hslash, hclose, hequals, hlower]
    rw [List.cons_append, tokenize_cons, hstep]
    refine (ih hname _).trans ?_
    simp

/-- A quoted value runs up to the next quote. -/
theorem tokenize_quoted {quote : Char} {value : List Char} (h : quote ∉ value) (tag : Tag) (name read rest : List Char) :
    tokenize (.quoted quote tag name read) (value ++ quote :: rest) =
      tokenize (.attributes (tag.push name (read ++ value))) rest := by
  induction value generalizing read with
  | nil => simp [tokenize_cons, step]
  | cons c value ih =>
    rw [List.mem_cons, not_or] at h
    have hstep : step (.quoted quote tag name read) c = (.quoted quote tag name (read ++ [c]), none) := if_neg (Ne.symm h.1)
    rw [List.cons_append, tokenize_cons, hstep]
    refine (ih h.2 _).trans ?_
    simp

/-- A character inside a tag completes it, or stays inside. -/
inductive StaysOrEmits : State × Option Token → Prop where
  | emits (tag : Tag) : StaysOrEmits (emit tag)
  | stays {s : State} (h : ∀ t, s ≠ .data t) : StaysOrEmits (s, none)

theorem inTagName_stays (tag : Tag) (c : Char) : StaysOrEmits (inTagName tag c) := by
  unfold inTagName
  split_ifs
  · exact .stays fun _ => State.noConfusion
  · exact .emits tag
  · exact .stays fun _ => State.noConfusion

theorem inAttributes_stays (tag : Tag) (c : Char) : StaysOrEmits (inAttributes tag c) := by
  unfold inAttributes
  split_ifs
  · exact .stays fun _ => State.noConfusion
  · exact .emits tag
  · exact .stays fun _ => State.noConfusion

theorem step_stays {s : State} (hs : ∀ t, s ≠ .data t) (c : Char) : StaysOrEmits (step s c) := by
  cases s with
  | data text => exact absurd rfl (hs text)
  | tagOpen =>
    rw [step]
    split_ifs
    · exact .stays fun _ => State.noConfusion
    · exact inTagName_stays _ c
  | tagName tag => exact inTagName_stays tag c
  | attributes tag => exact inAttributes_stays tag c
  | afterAttributeName tag name =>
    rw [step]
    split_ifs
    · exact .stays fun _ => State.noConfusion
    · exact .stays fun _ => State.noConfusion
    · exact inAttributes_stays _ c
  | attributeName | beforeAttributeValue | quoted | unquoted =>
    rw [step]
    split_ifs
    all_goals first
      | exact .emits _
      | exact .stays fun _ => State.noConfusion

/-- What is read inside a tag is that tag first, or nothing. -/
theorem tokenize_inTag {s : State} (hs : ∀ t, s ≠ .data t) (markup : List Char) :
    tokenize s markup = [] ∨ ∃ tag rest, tokenize s markup = .tag tag :: tokenize (.data []) rest := by
  induction markup generalizing s with
  | nil =>
    left
    cases s with
    | data text => exact absurd rfl (hs text)
    | _ => rfl
  | cons c rest ih =>
    rw [tokenize_cons]
    have hstep := step_stays hs c
    generalize step s c = r at hstep
    cases hstep with
    | emits tag => exact .inr ⟨tag, rest, rfl⟩
    | stays h => exact ih h

/-! ## Decoding -/

/-- No `&` of the text begins a reference. -/
def NoReference (reference : Reference) (t : List Char) : Prop := ∀ rest, '&' :: rest <:+ t → reference rest = none

theorem noReference_of_not_mem {t : List Char} (h : '&' ∉ t) (reference : Reference) : NoReference reference t :=
  fun _ hrest => absurd (hrest.subset List.mem_cons_self) h

theorem NoReference.tail {reference : Reference} {c : Char} {t : List Char} (h : NoReference reference (c :: t)) :
    NoReference reference t := fun rest hrest => h rest (hrest.trans (List.suffix_cons c t))

theorem decode_noReference {reference : Reference} {t : List Char} (h : NoReference reference t) :
    decode reference 0 t = t := by
  induction t with
  | nil => rfl
  | cons c t ih =>
    have hrest := ih h.tail
    by_cases hc : c = '&'
    · subst hc
      rw [decode, if_pos rfl, h t (List.suffix_refl _)]
      exact congrArg _ hrest
    · rw [decode, if_neg hc, hrest]

section Shorter
variable {reference : Reference}
  (hshorter : ∀ rest characters n, reference rest = some (characters, n) → characters.length ≤ n ∧ n ≤ rest.length)
include hshorter

theorem length_decode_le (skip : Nat) (t : List Char) : (decode reference skip t).length ≤ t.length - skip := by
  induction t generalizing skip with
  | nil => simp [decode]
  | cons c t ih =>
    cases skip with
    | succ skip =>
      have := ih skip
      rw [decode, List.length_cons]
      omega
    | zero =>
      have hrest := ih 0
      rw [decode]
      split
      · cases href : reference t with
        | none =>
          dsimp only
          rw [List.length_cons, List.length_cons]
          omega
        | some found =>
          obtain ⟨characters, n⟩ := found
          obtain ⟨hlen, hn⟩ := hshorter t characters n href
          have := ih n
          dsimp only
          rw [List.length_append, List.length_cons]
          omega
      · rw [List.length_cons, List.length_cons]
        omega

/-- Decoding changes every text that has a reference: it gets shorter. -/
theorem decode_eq_iff (t : List Char) : decode reference 0 t = t ↔ NoReference reference t := by
  refine ⟨?_, decode_noReference⟩
  induction t with
  | nil =>
    intro _ rest hrest
    cases List.suffix_nil.1 hrest
  | cons c t ih =>
    intro h
    have hsplit : ∀ rest, '&' :: rest <:+ c :: t → ('&' = c ∧ rest = t) ∨ '&' :: rest <:+ t := by
      intro rest hrest
      rcases List.suffix_cons_iff.1 hrest with heq | hsuffix
      · exact .inl (List.cons.inj heq)
      · exact .inr hsuffix
    rw [decode] at h
    split at h
    · next hc =>
      cases href : reference t with
      | some found =>
        obtain ⟨characters, n⟩ := found
        obtain ⟨hlen, hn⟩ := hshorter t characters n href
        have hrest := length_decode_le hshorter n t
        rw [href] at h
        have hlength := congrArg List.length h
        simp only [List.length_append, List.length_cons] at hlength
        omega
      | none =>
        rw [href] at h
        have htail := ih (List.cons.inj h).2
        intro rest hrest
        rcases hsplit rest hrest with ⟨-, rfl⟩ | hsuffix
        · exact href
        · exact htail rest hsuffix
    · next hc =>
      have htail := ih (List.cons.inj h).2
      intro rest hrest
      rcases hsplit rest hrest with ⟨rfl, -⟩ | hsuffix
      · exact absurd rfl hc
      · exact htail rest hsuffix

end Shorter

/-! ## Options written out -/

/-- `<option value="value">text</option>`, the value and the text as they stand. -/
def optionMarkup (choice : List Char × List Char) : List Char :=
  '<' :: (optionName ++ ' ' :: (valueName ++ '=' :: '"' :: (choice.1 ++ '"' :: '>' ::
    (choice.2 ++ '<' :: '/' :: (optionName ++ ['>'])))))

def openingTag (value : List Char) : Tag := { name := optionName, attributes := [(valueName, value)] }

def closingTag : Tag := { closing := true, name := optionName }

theorem tokenize_opening {value : List Char} (h : '"' ∉ value) (rest : List Char) :
    tokenize .tagOpen (optionName ++ ' ' :: (valueName ++ '=' :: '"' :: (value ++ '"' :: '>' :: rest))) =
      .tag (openingTag value) :: tokenize (.data []) rest := by
  have hoption : PlainName optionName := by decide
  have hvalue : PlainName ['a', 'l', 'u', 'e'] := by decide
  have hname : optionName ≠ [] := List.cons_ne_nil _ _
  have hsplit : ∀ t, valueName ++ t = 'v' :: (['a', 'l', 'u', 'e'] ++ t) := fun _ => rfl
  rw [tokenize_tagOpen hoption hname, tokenize_cons, hsplit, tokenize_cons]
  refine (tokenize_attributeName hvalue _ _ _).trans ?_
  rw [tokenize_cons, tokenize_cons]
  refine (tokenize_quoted h _ _ _ _).trans ?_
  rw [tokenize_cons]
  rfl

theorem tokenize_closing (rest : List Char) :
    tokenize .tagOpen ('/' :: (optionName ++ '>' :: rest)) = .tag closingTag :: tokenize (.data []) rest := by
  have hoption : PlainName optionName := by decide
  rw [tokenize_cons]
  refine (tokenize_tagName hoption _ _).trans ?_
  rw [tokenize_cons]
  rfl

theorem tokens_opening {value : List Char} (h : '"' ∉ value) (text rest : List Char) :
    tokens (optionMarkup (value, text) ++ rest) =
      .text [] :: .tag (openingTag value) ::
        tokenize (.data []) (text ++ '<' :: '/' :: (optionName ++ '>' :: rest)) := by
  have hsplit : optionMarkup (value, text) ++ rest =
      '<' :: (optionName ++ ' ' :: (valueName ++ '=' :: '"' :: (value ++ '"' :: '>' ::
        (text ++ '<' :: '/' :: (optionName ++ '>' :: rest))))) := by
    simp [optionMarkup]
  rw [tokens, hsplit, tokenize_cons]
  exact congrArg (.text [] :: ·) (tokenize_opening h _)

/-- An option whose text opens no tag. -/
theorem tokens_option {value text : List Char} (hvalue : '"' ∉ value) (htext : '<' ∉ text) (rest : List Char) :
    tokens (optionMarkup (value, text) ++ rest) =
      .text [] :: .tag (openingTag value) :: .text text :: .tag closingTag :: tokens rest := by
  rw [tokens_opening hvalue, tokenize_text htext, tokenize_closing]
  rfl

theorem optionTags_succ (n : Nat) :
    optionTags (n + 1) = (false, optionName) :: (true, optionName) :: optionTags n := rfl

/-- The element of a choice. -/
def optionOf (choice : List Char × List Char) : OptionElement :=
  ⟨some (decode references.inAttribute 0 choice.1), choice.2⟩

/-- Written out, choices whose texts open no tag and hold no reference are the options found. -/
theorem optionElements_choices {choices : List (List Char × List Char)} (hvalues : ∀ choice ∈ choices, '"' ∉ choice.1)
    (htexts : ∀ choice ∈ choices, '<' ∉ choice.2 ∧ NoReference references.inText choice.2) :
    optionElements references (tokens (choices.flatMap optionMarkup)) none = choices.map (optionOf references) ∧
      tagStructure (tokens (choices.flatMap optionMarkup)) = optionTags choices.length := by
  induction choices with
  | nil => exact ⟨rfl, rfl⟩
  | cons choice choices ih =>
    obtain ⟨value, text⟩ := choice
    obtain ⟨hvalue, hvalues⟩ := List.forall_mem_cons.1 hvalues
    obtain ⟨⟨htext, hreference⟩, htexts⟩ := List.forall_mem_cons.1 htexts
    obtain ⟨helements, htags⟩ := ih hvalues htexts
    rw [List.flatMap_cons, tokens_option hvalue htext]
    refine ⟨?_, ?_⟩
    · have hdecode := decode_noReference hreference
      simp [optionElements, openOption, openingTag, closingTag, optionOf, helements, hdecode]
    · rw [List.length_cons, optionTags_succ, ← htags]
      rfl

/-- The texts and the tags are those of the choices only when no text opens a tag or holds a reference. -/
theorem texts_plain {choices : List (List Char × List Char)} (hvalues : ∀ choice ∈ choices, '"' ∉ choice.1)
    (htexts : (optionElements references (tokens (choices.flatMap optionMarkup)) none).map OptionElement.text =
      choices.map Prod.snd)
    (htags : tagStructure (tokens (choices.flatMap optionMarkup)) = optionTags choices.length) :
    ∀ choice ∈ choices, '<' ∉ choice.2 ∧ NoReference references.inText choice.2 := by
  induction choices with
  | nil => exact List.forall_mem_nil _
  | cons choice choices ih =>
    obtain ⟨value, text⟩ := choice
    obtain ⟨hvalue, hvalues⟩ := List.forall_mem_cons.1 hvalues
    rw [List.flatMap_cons] at htexts htags
    by_cases htext : '<' ∈ text
    · -- The tag must close the option, and then its text ends too early.
      exfalso
      obtain ⟨before, behind, rfl, hbefore⟩ := List.eq_append_cons_of_mem htext
      rw [tokens_opening hvalue, List.append_assoc, List.cons_append, tokenize_text hbefore] at htexts htags
      rw [List.length_cons, optionTags_succ] at htags
      have htags' := (List.cons.inj htags).2
      rcases tokenize_inTag (s := .tagOpen) (fun _ => State.noConfusion)
        (behind ++ '<' :: '/' :: (optionName ++ '>' :: choices.flatMap optionMarkup)) with hnil | ⟨tag, rest, htag⟩
      · rw [hnil] at htags'
        cases htags'
      · rw [htag] at htags' htexts
        obtain ⟨hclosing, hname⟩ := Prod.mk.inj (List.cons.inj htags').1
        have hhead : decode references.inText 0 before = before ++ '<' :: behind := by
          simp [optionElements, openOption, openingTag, hclosing, hname] at htexts
          exact htexts.1
        have hshort := length_decode_le references.shorter 0 before
        rw [hhead, List.length_append, List.length_cons] at hshort
        omega
    · rw [tokens_option hvalue htext] at htexts htags
      rw [List.length_cons, optionTags_succ] at htags
      have htexts' : decode references.inText 0 text = text ∧
          (optionElements references (tokens (choices.flatMap optionMarkup)) none).map OptionElement.text =
            choices.map Prod.snd := by
        simpa [optionElements, openOption, openingTag, closingTag] using htexts
      have htags' : tagStructure (tokens (choices.flatMap optionMarkup)) = optionTags choices.length :=
        (List.cons.inj (List.cons.inj htags).2).2
      refine List.forall_mem_cons.2 ⟨⟨htext, ?_⟩, ih hvalues htexts'.2 htags'⟩
      exact (decode_eq_iff references.shorter text).1 htexts'.1

end Lib.Html
