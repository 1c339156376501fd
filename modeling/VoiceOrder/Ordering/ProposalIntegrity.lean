import VoiceOrder.Ordering.MentionVerification

/-! # Accepted proposals are neither lost nor mixed

A turn proposes the operations of the last call that was accepted, and speaks fields that each
come from the last call that set them. Nothing is lost, and nothing mixed, if and only if these
are one proposal and one voice. -/

namespace VoiceOrder.Ordering.AgentGraph

open VoiceOrder.CartModule VoiceOrder.Backend

/-- Every accepted call is proposed, and what is spoken is from one of them. -/
structure Whole (calls : List Accepted) (result : TurnResult) : Prop where
  kept : ∀ call ∈ calls, call.operations.Subperm result.operations
  /-- The call that the reply is from declared its language and its items, and is proposed. -/
  spoken : ∀ operations baseVersion reply language mentionedItems,
    result = .complete operations baseVersion (some reply) language mentionedItems →
    ∃ before call after, calls = before ++ call :: after ∧ (∀ later ∈ after, later.reply.reply = none) ∧
      call.operations.Subperm operations ∧ call.reply.reply = some reply ∧
      call.reply.language = language ∧ mentionedItems.getD [] = call.mentions

/-- The call that was accepted last holds the operations of all of them. -/
def OneProposal (calls : List Accepted) : Prop :=
  ∀ last, calls.getLast? = some last → ∀ call ∈ calls, call.operations.Subperm last.operations

/-- The call that replies last declares a language, or no call does. -/
def OneVoice (calls : List Accepted) : Prop :=
  ∀ last, (replying calls).getLast? = some last → last.reply.language = none →
    ∀ call ∈ calls, call.reply.language = none

section

variable {calls before after : List Accepted} {call last : Accepted} {services : Services}
  {e : SttFinalTranscriptReceived} {s final : OrderState} {parseJson : String → Option Json}

theorem mem_accepted {found : List CandidateItem} {ran : List Answered} (h : call ∈ accepted found ran) :
    ∃ arguments, call.reply = AgentReply.parseAgentReply arguments := by
  induction ran generalizing found with
  | nil => cases h
  | cons one ran ih =>
      rcases List.mem_append.mp h with hone | hrest
      · rw [Option.mem_toList, accepted?] at hone
        split at hone
        · cases hone
          exact ⟨one.1.arguments, rfl⟩
        · cases hone
      · exact ih hrest

/-- A call without a reply declares no language. -/
theorem language_of_unreplied (h : call ∈ proposals s) (hnone : call.reply.reply = none) :
    call.reply.language = none := by
  obtain ⟨arguments, heq⟩ := mem_accepted h
  rw [heq] at hnone ⊢
  rw [AgentReply.parseAgentReply_of_none hnone]

theorem replying_of_silent (h : ∀ later ∈ after, later.reply.reply = none) : replying after = [] := by
  rw [replying, List.filter_eq_nil_iff]
  intro later hmem
  simp [h later hmem]

/-- The call that replies last, in its place among the others. -/
theorem getLast?_replying :
    (replying calls).getLast? = some call ↔
      ∃ before after, calls = before ++ call :: after ∧ call.reply.reply.isSome = true ∧
        ∀ later ∈ after, later.reply.reply = none := by
  constructor
  · intro h
    obtain ⟨front, hfront⟩ := List.getLast?_eq_some_iff.mp h
    obtain ⟨before, rest, rfl, -, hrest⟩ := List.filter_eq_append_iff.mp hfront
    obtain ⟨skipped, after, rfl, -, hsome, hafter⟩ := List.filter_eq_cons_iff.mp hrest
    refine ⟨before ++ skipped, after, by rw [List.append_assoc], hsome, fun later hmem => ?_⟩
    have hnot := List.filter_eq_nil_iff.mp hafter later hmem
    exact Option.not_isSome_iff_eq_none.mp hnot
  · rintro ⟨before, after, rfl, hsome, hafter⟩
    have hreplying : replying (before ++ call :: after) = replying before ++ [call] := by
      have hcons : replying (call :: after) = call :: replying after :=
        List.filter_cons_of_pos (by simpa using hsome)
      rw [replying, List.filter_append, ← replying, ← replying, hcons, replying_of_silent hafter]
    rw [hreplying]
    exact List.getLast?_concat

/-- The language that is spoken is the one of the call that replies last. -/
theorem language_eq_iff (h : (replying (proposals s)).getLast? = some last) :
    ((proposals s).filterMap fun call => call.reply.language).getLast? = last.reply.language ↔
      OneVoice (proposals s) := by
  constructor
  · intro hlanguage found hfound hnone call hmem
    cases h.symm.trans hfound
    rw [hnone, List.getLast?_eq_none_iff, List.filterMap_eq_nil_iff] at hlanguage
    exact hlanguage call hmem
  · intro hvoice
    cases hlanguage : last.reply.language with
    | none =>
        rw [List.getLast?_eq_none_iff, List.filterMap_eq_nil_iff]
        exact hvoice last h hlanguage
    | some language =>
        obtain ⟨before, after, hcalls, -, hafter⟩ := getLast?_replying.mp h
        have hsilent : after.filterMap (fun call => call.reply.language) = [] := by
          rw [List.filterMap_eq_nil_iff]
          intro later hmem
          have hcall : later ∈ proposals s := by
            rw [hcalls]
            exact List.mem_append_right _ (List.mem_cons_of_mem _ hmem)
          exact language_of_unreplied hcall (hafter later hmem)
        rw [hcalls, List.filterMap_append, List.filterMap_cons, hlanguage, hsilent]
        exact List.getLast?_concat

/-- A turn that accepted proposals completes with the last of them. -/
theorem interpret_proposed (hintent : s.intent = .service) (hfailure : s.failureReason = none)
    (houtput : s.output = some last.operations) :
    interpret s = .complete last.operations s.baseVersion s.reply
      (s.reply.bind fun _ => s.replyLanguage) (s.reply.bind fun _ => nonempty s.mentionedItems) := by
  unfold interpret
  rw [hintent, hfailure, houtput]
  cases s.reply <;> rfl

/-- A turn without a proposal has nothing to lose or to mix. -/
theorem whole_of_none (houtput : s.output = none) (hnone : proposals s = []) :
    Whole (proposals s) (interpret s) ↔ OneProposal (proposals s) ∧ OneVoice (proposals s) := by
  have hincomplete : ∀ operations baseVersion reply language mentionedItems,
      interpret s ≠ .complete operations baseVersion reply language mentionedItems := by
    unfold interpret
    rw [houtput]
    cases s.intent with
    | junk => exact nofun
    | service =>
        cases s.failureReason with
        | none => cases s.reply <;> exact nofun
        | some reason => exact nofun
  rw [hnone]
  refine iff_of_true ⟨fun _ hmem => (nomatch hmem), ?_⟩
    ⟨fun _ hlast => (nomatch hlast), fun _ hlast => (nomatch hlast)⟩
  intro operations baseVersion reply language mentionedItems hresult
  exact absurd hresult (hincomplete _ _ _ _ _)

/-- What is spoken is from one call, if all of them are proposed and there is one voice. -/
theorem spoken_whole (hone : OneProposal (proposals s)) (hvoice : OneVoice (proposals s))
    (hlast : (proposals s).getLast? = some last) {replied : Accepted}
    (hreplied : (replying (proposals s)).getLast? = some replied) {reply : String}
    (hreply : replied.reply.reply = some reply)
    (hlanguage : s.replyLanguage = ((proposals s).filterMap fun call => call.reply.language).getLast?) :
    ∃ before call after, proposals s = before ++ call :: after ∧
      (∀ later ∈ after, later.reply.reply = none) ∧ call.operations.Subperm last.operations ∧
      call.reply.reply = some reply ∧ call.reply.language = s.replyLanguage ∧
      replied.mentions = call.mentions := by
  obtain ⟨before, after, hcalls, -, hafter⟩ := getLast?_replying.mp hreplied
  have hmem : replied ∈ proposals s := by
    rw [hcalls]
    exact List.mem_append_right _ List.mem_cons_self
  have hsame := (language_eq_iff hreplied).mpr hvoice
  exact ⟨before, replied, after, hcalls, hafter, hone last hlast replied hmem, hreply,
    (hlanguage.trans hsame).symm, rfl⟩

/-- In every turn, whatever calls its batches made in whatever order and whichever failed, no
accepted proposal is lost or mixed if and only if they are one proposal with one voice. -/
theorem proposals_whole_iff (h : invoke services e s = .ok final) :
    Whole (proposals final) (interpret final) ↔
      OneProposal (proposals final) ∧ OneVoice (proposals final) := by
  cases invoke_ended h with
  | silent houtput _ hnone => exact whole_of_none houtput hnone
  | spoke _ houtput hnone => exact whole_of_none houtput hnone
  | proposed last hintent hfailure hlast houtput _ hreply hlanguage hmentioned =>
      have hresult := interpret_proposed hintent hfailure houtput
      rw [hresult]
      constructor
      · intro hwhole
        refine ⟨fun found hfound call hmem => ?_, fun replied hreplied hnone => ?_⟩
        · cases hlast.symm.trans hfound
          exact hwhole.kept call hmem
        · rw [hreplied] at hreply
          obtain ⟨-, -, -, hsome, -⟩ := getLast?_replying.mp hreplied
          obtain ⟨reply, hsaid⟩ := Option.isSome_iff_exists.mp hsome
          have hfinal : final.reply = some reply := hreply.trans hsaid
          obtain ⟨before, call, after, hcalls, hafter, -, hcall, hspoken, -⟩ :=
            hwhole.spoken last.operations final.baseVersion reply final.replyLanguage
              (nonempty final.mentionedItems) (by rw [hfinal]; rfl)
          have hsame : (replying (proposals final)).getLast? = some call :=
            getLast?_replying.mpr ⟨before, after, hcalls, by rw [hcall]; rfl, hafter⟩
          cases hreplied.symm.trans hsame
          exact (language_eq_iff hreplied).mp (hlanguage.symm.trans hspoken.symm) replied hreplied hnone
      · rintro ⟨hone, hvoice⟩
        refine ⟨hone last hlast, ?_⟩
        intro operations baseVersion reply language mentionedItems hcomplete
        cases hreplied : (replying (proposals final)).getLast? with
        | none =>
            rw [hreplied] at hreply
            rw [hreply] at hcomplete
            cases hcomplete
        | some replied =>
            rw [hreplied] at hreply hmentioned
            obtain ⟨-, -, -, hsome, -⟩ := getLast?_replying.mp hreplied
            obtain ⟨said, hsaid⟩ := Option.isSome_iff_exists.mp hsome
            have hfinal : final.reply = some said := hreply.trans hsaid
            rw [hfinal] at hcomplete
            cases hcomplete
            rw [Option.bind_some, Option.bind_some, nonempty_getD, hmentioned]
            exact spoken_whole hone hvoice hlast hreplied hsaid hlanguage

end

/-! ## Batches -/

/-- A proposal that adds one item, with the other fields of its arguments. -/
def proposeItem (id menuItemKey : String) (fields : List (String × Json)) : ToolCall where
  id := id
  name := "propose_cart"
  arguments := .obj (("operations", .arr [.obj [("action", .str "add_item"),
    ("menu_item_key", .str menuItemKey), ("quantity", .num 1)]]) :: fields)

/-- The agent asks for these calls at once. -/
def requesting (calls : List ToolCall) : Services :=
  scripted (fun _ => none) fun _ => { text := none, toolCalls := calls }

/-- One proposal that bundles its confirmation. -/
theorem proposals_whole_iff_single :
    ∃ final, invoke (requesting [proposeItem "call_1" "chicken_burger"
        [("reply", .str "One burger."), ("language", .str "en")]]) question begun = .ok final ∧
      interpret final =
        .complete [.addItem "chicken_burger" 1 []] 0 (some "One burger.") (some "en") none ∧
      (Whole (proposals final) (interpret final) ↔
        OneProposal (proposals final) ∧ OneVoice (proposals final)) := by
  have hturn : ∃ final, invoke (requesting [proposeItem "call_1" "chicken_burger"
      [("reply", .str "One burger."), ("language", .str "en")]]) question begun = .ok final ∧
      decide (interpret final =
        .complete [.addItem "chicken_burger" 1 []] 0 (some "One burger.") (some "en") none) = true :=
    exists_ok (by decide +kernel)
  obtain ⟨final, hinvoke, hresult⟩ := hturn
  exact ⟨final, hinvoke, of_decide_eq_true hresult, proposals_whole_iff hinvoke⟩

/-- Two proposals in one batch are both accepted. Only the second is proposed, with the words
of the first. -/
theorem proposals_lost :
    ∃ final, invoke (requesting [proposeItem "call_1" "chicken_burger"
        [("reply", .str "One burger."), ("language", .str "en")],
        proposeItem "call_2" "cola" []]) question begun = .ok final ∧
      (proposals final).map Accepted.operations =
        [[.addItem "chicken_burger" 1 []], [.addItem "cola" 1 []]] ∧
      interpret final = .complete [.addItem "cola" 1 []] 0 (some "One burger.") (some "en") none ∧
      ¬Whole (proposals final) (interpret final) := by
  have hturn : ∃ final, invoke (requesting [proposeItem "call_1" "chicken_burger"
      [("reply", .str "One burger."), ("language", .str "en")],
      proposeItem "call_2" "cola" []]) question begun = .ok final ∧
      decide ((proposals final).map Accepted.operations =
          [[.addItem "chicken_burger" 1 []], [.addItem "cola" 1 []]] ∧
        interpret final = .complete [.addItem "cola" 1 []] 0 (some "One burger.") (some "en") none) = true :=
    exists_ok (by decide +kernel)
  obtain ⟨final, hinvoke, hheld⟩ := hturn
  obtain ⟨hoperations, hresult⟩ := of_decide_eq_true hheld
  refine ⟨final, hinvoke, hoperations, hresult, fun hwhole => ?_⟩
  have hburger : [CartOperation.addItem "chicken_burger" 1 []] ∈
      (proposals final).map Accepted.operations := by
    rw [hoperations]
    exact List.mem_cons_self
  obtain ⟨call, hmem, hcall⟩ := List.mem_map.mp hburger
  have hkept := hwhole.kept call hmem
  rw [hcall, hresult] at hkept
  have hproposed : CartOperation.addItem "chicken_burger" 1 [] ∈ [CartOperation.addItem "cola" 1 []] :=
    hkept.subset List.mem_cons_self
  revert hproposed
  decide

end VoiceOrder.Ordering.AgentGraph
