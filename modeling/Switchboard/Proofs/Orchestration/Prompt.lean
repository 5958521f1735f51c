import Mathlib.Algebra.BigOperators.Group.List.Basic
import Mathlib.Algebra.Order.Ring.Nat
import Switchboard.Model.Provider
import Switchboard.Orchestration.Prompt
import Switchboard.Proofs.Splitting

/-!
# Prompts and what is read off them

The demonstration provider counts the lines of its prompt that begin as a piece of context does.
Every piece puts such a line into the prompt, and so does every later line of a quoted text that
happens to begin so, as well as any line of the profile (`Demo.contextCount_system`). What the
provider says of a call is `Demo.readback`.
-/

namespace Switchboard

namespace Request

variable {r : Request} {p : Profile} {m : ModelDescriptor} {known : Recollection}

/-- The prompt of a call is its first message, whatever the history says. -/
theorem systemPrompt_toCall :
    (r.toCall p m known).systemPrompt = some (Prompt.system p r known.knowledge) := by
  simp [toCall, messages, ModelCall.systemPrompt]

/-- The last message of the user in a call is that of the request, whatever the history says. -/
theorem lastUserMessage_toCall :
    (r.toCall p m known).lastUserMessage = some (Prompt.user r) := by
  simp [toCall, messages, ModelCall.lastUserMessage]

end Request

namespace Demo

open Text

/-! ## Lines that begin as a piece of context does -/

/-- Whether a line begins as a piece of context does. -/
def opensContext (line : List Char) : Bool :=
  ['-', ' ', '['].isPrefixOf line

/-- The number of lines after the first that begin as a piece of context does. -/
def strayCount (s : List Char) : ℕ :=
  (s.splitOn '\n').tail.countP opensContext

/-- Whether a text begins with a word does not depend on what is put behind it, if that begins with
a character outside of the word. -/
theorem isPrefixOf_append {w t : List Char} (ht : ∀ c ∈ t.head?, c ∉ w) (s : List Char) :
    w.isPrefixOf (s ++ t) = w.isPrefixOf s := by
  induction w generalizing s with
  | nil => simp
  | cons a w ih =>
    cases s with
    | nil =>
      cases t with
      | nil => rfl
      | cons c t =>
        have hne : a ≠ c := by
          rintro rfl
          exact ht a rfl List.mem_cons_self
        simp [List.isPrefixOf, hne]
    | cons d s =>
      have hrest := ih (fun c hc hw => ht c hc (List.mem_cons_of_mem a hw)) s
      rw [List.cons_append, List.isPrefixOf_cons_cons, List.isPrefixOf_cons_cons, hrest]

/-- The text begins with a character that continues no beginning of a piece of context. -/
def Interrupts (t : List Char) : Prop :=
  ∀ c ∈ t.head?, c ∉ ['-', ' ', '[']

theorem opensContext_append {t : List Char} (ht : Interrupts t) (s : List Char) :
    opensContext (s ++ t) = opensContext s :=
  isPrefixOf_append ht s

theorem strayCount_of_ne {c : Char} (hc : c ≠ '\n') (s : List Char) :
    strayCount (c :: s) = strayCount s := by
  obtain ⟨line, lines, hsplit⟩ := List.exists_cons_of_ne_nil (List.splitOn_ne_nil '\n' s)
  simp [strayCount, List.splitOn_cons_eq_if_modifyHead, hc, hsplit]

/-- The first line begins as the whole text does. -/
theorem countP_opensContext (s : List Char) :
    (s.splitOn '\n').countP opensContext =
      (if opensContext s then 1 else 0) + strayCount s := by
  by_cases hbreak : '\n' ∈ s
  · obtain ⟨first, rest, rfl, hfirst⟩ := List.eq_append_cons_of_mem hbreak
    have hopens := opensContext_append (t := '\n' :: rest) (by simp [Interrupts]) first
    rw [strayCount, List.splitOn_append_cons_self,
      List.splitOn_eq_singleton hfirst, hopens, List.singleton_append,
      List.countP_cons, List.tail_cons, Nat.add_comm]
  · rw [strayCount, List.splitOn_eq_singleton hbreak, List.countP_singleton, List.tail_cons,
      List.countP_nil, Nat.add_zero]

theorem strayCount_newline (s : List Char) :
    strayCount ('\n' :: s) = (if opensContext s then 1 else 0) + strayCount s := by
  rw [← countP_opensContext, strayCount, List.splitOn_cons_eq_if_modifyHead, if_pos (by simp),
    List.tail_cons]

/-- Stray lines are counted part by part where the second part interrupts a line. -/
theorem strayCount_append {t : List Char} (ht : Interrupts t) (s : List Char) :
    strayCount (s ++ t) = strayCount s + strayCount t := by
  induction s with
  | nil => simp [strayCount]
  | cons c s ih =>
    rw [List.cons_append]
    by_cases hc : c = '\n'
    · subst hc
      rw [strayCount_newline, strayCount_newline, opensContext_append ht, ih, Nat.add_assoc]
    · rw [strayCount_of_ne hc, strayCount_of_ne hc, ih]

/-- The count is one over all lines. -/
theorem contextCount_eq (s : String) :
    contextCount s = (s.toList.splitOn '\n').countP opensContext :=
  rfl

/-- Text put behind a line adds its stray lines. -/
theorem contextCount_append {t : String} (ht : Interrupts t.toList) (s : String) :
    contextCount (s ++ t) = contextCount s + strayCount t.toList := by
  rw [contextCount_eq, contextCount_eq, countP_opensContext, countP_opensContext,
    String.toList_append, opensContext_append ht, strayCount_append ht, Nat.add_assoc]

theorem contextCount_eq_zero_iff {s : String} :
    contextCount s = 0 ↔ ∀ line ∈ s.toList.splitOn '\n', opensContext line = false := by
  simp [contextCount_eq, List.countP_eq_zero]

/-- A text has no stray lines exactly if no line after its first begins as a piece of context does.
-/
theorem strayCount_eq_zero_iff {s : List Char} :
    strayCount s = 0 ↔ ∀ line ∈ (s.splitOn '\n').tail, opensContext line = false := by
  simp [strayCount, List.countP_eq_zero]

/-- The lines of several texts that come after the first of their text and begin so. -/
def strayTotal (l : List String) : ℕ :=
  (l.map fun s => strayCount s.toList).sum

theorem strayTotal_append (l l' : List String) :
    strayTotal (l ++ l') = strayTotal l + strayTotal l' := by
  rw [strayTotal, List.map_append, List.sum_append, strayTotal, strayTotal]

theorem strayTotal_eq_zero_iff {l : List String} :
    strayTotal l = 0 ↔
      ∀ s ∈ l, ∀ line ∈ (s.toList.splitOn '\n').tail, opensContext line = false := by
  rw [strayTotal, List.sum_eq_zero_iff_forall_eq_nat]
  simp [strayCount_eq_zero_iff]

/-! ## Prompts -/

/-- The texts that a prompt quotes for the place of a request. -/
def quotedPlace (c : Option RequestContext) : List String :=
  (c.bind (·.filePath)).toList ++ (c.bind (·.language)).toList

/-- The texts that a prompt quotes for pieces of knowledge. -/
def quotedKnowledge (l : List KnowledgeSnippet) : List String :=
  l.flatMap fun k => [k.source, k.content]

/-- The lines of a prompt that begin as a piece of context does though no piece begins there. -/
def strays (p : Profile) (r : Request) (l : List KnowledgeSnippet) : ℕ :=
  contextCount p.systemPrompt + strayTotal (quotedPlace r.context ++ quotedKnowledge l)

/-- What an optional text adds to a prompt behind a label that adds nothing itself. -/
theorem strayCount_elim (label : String)
    (h : ∀ s : String, strayCount (label ++ s).toList = strayCount s.toList) (o : Option String) :
    strayCount (o.elim "" fun s => label ++ s).toList = strayTotal o.toList := by
  cases o with
  | none => rfl
  | some s => simpa [strayTotal] using h s

theorem strayCount_placeText (c : Option RequestContext) :
    strayCount (Prompt.placeText c).toList = strayTotal (quotedPlace c) := by
  cases c with
  | none => rfl
  | some c =>
    have hpath := strayCount_elim "\n\nCurrent file: "
      (fun s => by simp [strayCount_newline, strayCount_of_ne, opensContext]) c.filePath
    have hlanguage := strayCount_elim "\nLanguage: "
      (fun s => by simp [strayCount_newline, strayCount_of_ne, opensContext]) c.language
    have hinterrupts :
        Interrupts (c.language.elim "" fun language => "\nLanguage: " ++ language).toList := by
      cases c.language <;> simp [Interrupts]
    rw [Prompt.placeText, String.toList_append, strayCount_append hinterrupts, hpath, hlanguage,
      ← strayTotal_append]
    rfl

/-- A piece of knowledge adds its own line and the stray lines of what it quotes. -/
theorem strayCount_snippetLine (k : KnowledgeSnippet) :
    strayCount (Prompt.snippetLine k).toList = 1 + strayTotal [k.source, k.content] := by
  have hline : (Prompt.snippetLine k).toList =
      '\n' :: '-' :: ' ' :: '[' :: (k.source.toList ++ ']' :: ' ' :: k.content.toList) := by
    simp [Prompt.snippetLine]
  have hbody : strayCount (k.source.toList ++ ']' :: ' ' :: k.content.toList) =
      strayTotal [k.source, k.content] := by
    rw [strayCount_append (by simp [Interrupts]), strayCount_of_ne (by decide),
      strayCount_of_ne (by decide)]
    simp [strayTotal]
  rw [hline, strayCount_newline, strayCount_of_ne (by decide), strayCount_of_ne (by decide),
    strayCount_of_ne (by decide), hbody]
  rfl

/-- Knowledge adds a line for each piece and the stray lines of what is quoted. -/
theorem strayCount_knowledgeText (l : List KnowledgeSnippet) :
    strayCount (Prompt.knowledgeText l).toList = l.length + strayTotal (quotedKnowledge l) := by
  have hlines : strayCount (String.join (l.map Prompt.snippetLine)).toList =
      l.length + strayTotal (quotedKnowledge l) := by
    induction l with
    | nil => rfl
    | cons k rest ih =>
      have hinterrupts : Interrupts (String.join (rest.map Prompt.snippetLine)).toList := by
        cases rest <;> simp [Interrupts, Prompt.snippetLine, String.toList_join]
      have hjoin : (String.join ((k :: rest).map Prompt.snippetLine)).toList =
          (Prompt.snippetLine k).toList ++
            (String.join (rest.map Prompt.snippetLine)).toList := by
        simp [String.toList_join]
      have hquoted : quotedKnowledge (k :: rest) = [k.source, k.content] ++ quotedKnowledge rest :=
        rfl
      rw [hjoin, strayCount_append hinterrupts, strayCount_snippetLine, ih, hquoted,
        strayTotal_append, List.length_cons]
      omega
  cases l with
  | nil => rfl
  | cons k rest =>
    rw [← hlines]
    simp [Prompt.knowledgeText, strayCount_newline, strayCount_of_ne, opensContext]

/-- Each piece of context is counted once, and each stray line. -/
theorem contextCount_system (p : Profile) (r : Request) (l : List KnowledgeSnippet) :
    contextCount (Prompt.system p r l) = l.length + strays p r l := by
  have hplace : Interrupts (Prompt.placeText r.context).toList := by
    rcases r.context with - | ⟨- | path, -, -, - | language⟩ <;>
      simp [Interrupts, Prompt.placeText]
  have hknowledge : Interrupts (Prompt.knowledgeText l).toList := by
    cases l <;> simp [Interrupts, Prompt.knowledgeText]
  rw [Prompt.system, contextCount_append hknowledge, contextCount_append hplace,
    strayCount_placeText, strayCount_knowledgeText, strays, strayTotal_append]
  omega

/-- What the provider says of a call with a number of pieces of context and of earlier messages. -/
def report (model user : String) (pieces messages : ℕ) : ModelOutput where
  content := model ++ " received: " ++ user ++ " (" ++ toString pieces ++ " context snippets, " ++
    toString messages ++ " prior messages)"

/-- The provider answers the calls of its models, and tells the number of earlier messages. The
number of pieces of context that it tells is theirs and that of the stray lines: it is right if and
only if no line of the profile, and no line after the first of a quoted text, begins as a piece of
context does. -/
theorem readback (p : Profile) (r : Request) (m : ModelDescriptor) (known : Recollection) :
    provider.answer (r.toCall p m known) =
      (if m.name ∈ models.map (·.name) then
        .ok (report m.name (Prompt.user r)
          (known.knowledge.length + strays p r known.knowledge) known.history.length)
      else .error (.unknownModel m.name)) ∧
    (strays p r known.knowledge = 0 ↔
      (∀ line ∈ p.systemPrompt.toList.splitOn '\n', opensContext line = false) ∧
      ∀ s ∈ quotedPlace r.context ++ quotedKnowledge known.knowledge,
        ∀ line ∈ (s.toList.splitOn '\n').tail, opensContext line = false) := by
  constructor
  · have hcount : ((r.toCall p m known).systemPrompt.map contextCount).getD 0 =
        known.knowledge.length + strays p r known.knowledge := by
      rw [Request.systemPrompt_toCall, Option.map_some, Option.getD_some, contextCount_system]
    have hmessages : (r.toCall p m known).messages.length - 2 = known.history.length := by
      simp [Request.toCall, Request.messages]
    have hrestate : restate (r.toCall p m known) = report m.name (Prompt.user r)
        (known.knowledge.length + strays p r known.knowledge) known.history.length := by
      rw [restate, hcount, hmessages, Request.lastUserMessage_toCall]
      rfl
    have hlisted : (models.any fun d => d.name = (r.toCall p m known).model) = true ↔
        m.name ∈ models.map (·.name) := by
      simp only [List.any_eq_true, decide_eq_true_eq, List.mem_map]
      rfl
    simp only [provider, Provider.serve, hrestate]
    exact if_congr hlisted rfl rfl
  · rw [strays, Nat.add_eq_zero_iff, contextCount_eq_zero_iff, strayTotal_eq_zero_iff]

namespace Errand

/-- A question for open tasks. -/
def request : Request where
  id := ⟨"errand", by decide +kernel⟩
  kind := .chat
  content := "open tasks"

/-- A model of the provider. -/
def model : ModelDescriptor where
  name := "codellama"
  providerName
  kind := .local
  capabilities := .single .code
  contextLength := 16384

/-- One note with one task. -/
def known : Recollection where
  knowledge := [⟨"open tasks:\n- [ ] write tests", 1, "notes"⟩]

end Errand

/-- A task in a note begins as a piece of context does: of one piece the provider says that there
are two. -/
theorem two_of_errand :
    Errand.known.knowledge.length = 1 ∧
      provider.answer (Errand.request.toCall .default Errand.model Errand.known) =
        .ok ⟨"codellama received: open tasks (2 context snippets, 0 prior messages)", none⟩ := by
  have hstrays : strays .default Errand.request Errand.known.knowledge = 1 := by decide +kernel
  have hlisted : Errand.model.name ∈ models.map (·.name) := List.mem_cons_self
  refine ⟨rfl, ?_⟩
  rw [(readback .default Errand.request Errand.model Errand.known).1, hstrays, if_pos hlisted]
  rfl

end Demo

end Switchboard
