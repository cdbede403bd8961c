import UiSuite.Proofs.Queue.Serving

/-! Polls of headless browsers.

A headless browser is told by its name in the user agent, as far as that can be read
(`Server.isHeadless_eq`). The user agent is looked at when the next payload is asked for, and a
posted text that is the exit command is answered before. So whatever it posts a headless browser
takes no payload, and for a text it gets nothing but the exit command
(`Exchange.headless_takes_nothing`). -/
namespace UiSuite.Queue

/-- The user agent of a request, as it was sent. -/
def Request.agent? (r : Request) : Option String :=
  (r.headers.find? fun h => Text.equalFold h.1 "user-agent").map (·.2)

/-- Whether the name of a headless browser stands in the user agent. -/
def Request.namesHeadless (r : Request) : Bool :=
  r.agent?.any (Text.contains · "HeadlessChrome")

/-- Whether the user agent can be read, if there is one. -/
def Request.isLegible (r : Request) : Bool :=
  r.agent?.all isPlainValue

namespace Server
variable {r : Request} {s : Server}

/-- A headless browser is told by its name, where that can be read. -/
theorem isHeadless_eq (h : r.namesHeadless = true → r.isLegible = true) :
    isHeadless r = r.namesHeadless := by
  have hheader : r.header "user-agent" = r.agent?.filter isPlainValue := rfl
  rw [isHeadless, hheader]
  rw [Request.namesHeadless, Request.isLegible] at h
  rw [Request.namesHeadless]
  cases hagent : r.agent? with
  | none => rfl
  | some agent =>
    rw [hagent, Option.any_some, Option.all_some] at h
    rw [Option.any_some, Option.filter_some]
    cases hnames : Text.contains agent "HeadlessChrome" with
    | true => rw [if_pos (h hnames), Option.any_some, hnames]
    | false => split <;> simp [hnames]

/-- A headless browser that posts a text gets nothing for it but the exit command for itself. -/
theorem postPoll_headless (hheadless : isHeadless r = true) {body : String}
    (hbody : bodyText r = .ok body) :
    s.postPoll r = (if s.isExit body then .text 200 s.exitCommand else .empty 204, s) := by
  cases hexit : s.isExit body with
  | true => exact postPoll_exit hbody hexit
  | false => exact (postPoll_poll hbody hexit).trans (poll_headless hheadless)

end Server

namespace Exchange
variable {x : Exchange}

/-- **A headless browser takes no payload**, where its user agent can be read, whatever the mode,
the queue and what it posts. It gets nothing for its polls, and for a text that it posts nothing but
the exit command, if the text is that. -/
theorem headless_takes_nothing (hat : x.isAt .polls "GET" = true ∨ x.isAt .polls "POST" = true)
    (hnames : x.request.namesHeadless = true) (hlegible : x.request.isLegible = true) :
    x.after = x.before ∧
      (x.isAt .polls "GET" = true → x.response = .empty 204) ∧
      (x.isAt .polls "POST" = true → ∀ body, x.request.body.length ≤ Server.bodyLimit →
        Text.Utf8.decode x.request.body = .ok body →
        x.response = if x.before.isExit body then .text 200 x.before.exitCommand
          else .empty 204) := by
  have hheadless : Server.isHeadless x.request = true :=
    (Server.isHeadless_eq fun _ => hlegible).trans hnames
  rcases hat with hget | hpost
  · have hhandle := (handle_of_get hget).trans (Server.poll_headless hheadless)
    have hnot : x.isAt .polls "POST" = false := isAt_of_isAt hget _ _
    exact ⟨congrArg Prod.snd hhandle, fun _ => congrArg Prod.fst hhandle, by simp [hnot]⟩
  · have hnot : x.isAt .polls "GET" = false := isAt_of_isAt hpost _ _
    cases hbody : Server.bodyText x.request with
    | ok body =>
      have hhandle := (handle_of_post hpost).trans (Server.postPoll_headless hheadless hbody)
      refine ⟨congrArg Prod.snd hhandle, by simp [hnot], fun _ b hfits hdecode => ?_⟩
      have hsame := hbody.symm.trans (Server.bodyText_eq_ok_iff.2 ⟨hfits, hdecode⟩)
      obtain rfl := Except.ok.inj hsame
      rw [response, hhandle]
    | error refusal =>
      have hhandle := (handle_of_post hpost).trans (Server.postPoll_refused hbody)
      refine ⟨congrArg Prod.snd hhandle, by simp [hnot], fun _ b hfits hdecode => ?_⟩
      have hsame := hbody.symm.trans (Server.bodyText_eq_ok_iff.2 ⟨hfits, hdecode⟩)
      cases hsame

/-- What a headless browser does at a server with one payload. -/
def headlessVisit (method agent : String) (body : List UInt8) : Exchange :=
  ⟨⟨method, "/next", [("User-Agent", agent)], body⟩, ⟨"/next", .exitWhenEmpty, "exit", ⟨["[]"]⟩⟩⟩

/-- It polls, and it posts a text. -/
theorem headless_takes_nothing_visits :
    let got := headlessVisit "GET" "Mozilla/5.0 HeadlessChrome/120.0" []
    let posted := headlessVisit "POST" "xHeadlessChromex" (Text.Utf8.encode "more")
    got.isAt .polls "GET" = true ∧ got.request.namesHeadless = true ∧
      got.request.isLegible = true ∧ got.after = got.before ∧ got.response = .empty 204 ∧
      posted.isAt .polls "POST" = true ∧ posted.request.namesHeadless = true ∧
      posted.request.isLegible = true ∧ posted.after = posted.before ∧
      posted.response = .empty 204 := by
  intro got posted
  have hgot : got.isAt .polls "GET" = true := by decide +kernel
  have hposted : posted.isAt .polls "POST" = true := by decide +kernel
  have hgotNames : got.request.namesHeadless = true := by decide +kernel
  have hgotLegible : got.request.isLegible = true := by decide +kernel
  have hpostedNames : posted.request.namesHeadless = true := by decide +kernel
  have hpostedLegible : posted.request.isLegible = true := by decide +kernel
  have hfits : posted.request.body.length ≤ Server.bodyLimit := by decide
  have hdecode : Text.Utf8.decode posted.request.body = .ok "more" := by rfl
  have hexit : posted.before.isExit "more" = false := by decide +kernel
  obtain ⟨hgotKept, hgotReply, -⟩ := headless_takes_nothing (.inl hgot) hgotNames hgotLegible
  obtain ⟨hkept, -, hreply⟩ := headless_takes_nothing (.inr hposted) hpostedNames hpostedLegible
  have hnothing := hreply hposted "more" hfits hdecode
  rw [hexit] at hnothing
  exact ⟨hgot, hgotNames, hgotLegible, hgotKept, hgotReply hgot, hposted, hpostedNames,
    hpostedLegible, hkept, hnothing⟩

/-- It gets the exit command for itself. Two things are left open above: what it gets for what is no
text, and that a name that cannot be read does not keep it from a payload. -/
theorem headless_answered :
    let exits := headlessVisit "POST" "HeadlessChrome/120.0" (Text.Utf8.encode "exit")
    let garbled := headlessVisit "POST" "HeadlessChrome/120.0" [0xFF]
    let accented := headlessVisit "GET" "é HeadlessChrome/120.0" []
    (∀ x ∈ [exits, garbled], x.isAt .polls "POST" = true ∧ x.request.namesHeadless = true) ∧
      exits.response = .text 200 "exit" ∧ garbled.response.status = 400 ∧
      accented.isAt .polls "GET" = true ∧ accented.request.namesHeadless = true ∧
      accented.response = .text 200 "[]" ∧ accented.after.queue.items = [] := by
  decide +kernel

end Exchange
end UiSuite.Queue
