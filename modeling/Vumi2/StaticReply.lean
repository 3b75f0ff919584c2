import Vumi2.ReplyRoutes
import Vumi2.Routers

/-!
# The static reply application

It answers every inbound message with the text of its configuration, and closes the session. It does
nothing with events.
-/

namespace Vumi2

open Effect Eff Text

/-- `StaticReplyConfig`. -/
structure StaticReplyConfig where
  transport_name : Str
  reply_text : Str

namespace StaticReplyApplication

/-- `handle_inbound_message` up to its publishing call. -/
def handleInboundMessage (config : StaticReplyConfig) (message : Message) :
    Py Unit Publication := do
  let r ← read
  let reply_msg ← ofExcept (message.reply (.string config.reply_text) .close [] r)
  pure (.outbound config.transport_name reply_msg)

/-- `handle_event`. -/
def handleEvent (_event : Event) : Py Unit Unit := pure ()

/-- The reply to a message. -/
def replyTo (config : StaticReplyConfig) (message : Message) (r : Reading) : Message :=
  message.replyFields (.string config.reply_text) .close r

/-- Every message has its reply. -/
theorem run_handleInboundMessage (config : StaticReplyConfig) (message : Message)
    (env : ℕ → Reading) :
    (handleInboundMessage config message).run env () =
      ⟨.ok (.outbound config.transport_name (replyTo config message (env 0))), 1, ()⟩ := by
  unfold handleInboundMessage Message.reply replyTo
  rfl

/-- It goes back the way the message came, and carries the text. -/
structure Answers (config : StaticReplyConfig) (message reply : Message) : Prop where
  goesBack : message.GoesBack reply
  content : reply.content = .string config.reply_text
  session_event : reply.session_event = .close

/-- The reply of the worker answers as its configuration says. -/
theorem answers_replyTo (config : StaticReplyConfig) (message : Message) (r : Reading) :
    Answers config message (replyTo config message r) :=
  ⟨Message.goesBack_replyFields message _ _ r, rfl, rfl⟩

end StaticReplyApplication

end Vumi2
