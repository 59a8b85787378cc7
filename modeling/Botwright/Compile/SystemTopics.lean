import Botwright.Compile.Topics
/-!
# System topics

Seven dialogs that every bot receives, always in the same order and in front of the author's
topics. The author may set the greeting, the fallback message and the escalation message.
-/
namespace Botwright.SystemTopics

/-- What the schema names of the system topics end in, in order. -/
def stems : List String :=
  ["ConversationStart", "Greeting", "Fallback", "Escalate", "Goodbye", "Thankyou", "OnError"]

def retryLimit : Nat := 3

def defaultGreeting : String := "Hello, how can I help you today?"

def defaultFallback : String :=
  "I'm sorry, I'm not sure how to help with that. Can you try rephrasing?"

def defaultEscalation : String :=
  "Escalating to a representative is not currently configured. " ++
    "Is there anything else I can help you with?"

def defaultStart (agent : String) : String :=
  "Hello, I'm " ++ agent ++ ". How can I help you today?"

def greetingPhrases : List String := ["Good afternoon", "Good morning", "Hello", "Hey", "Hi"]

def escalatePhrases : List String :=
  ["Talk to agent", "Talk to a person", "Talk to someone", "Can I speak to a representative",
    "Customer service", "I need help from a person", "Connect me to a live agent"]

def goodbyePhrases : List String := ["Bye", "Bye for now", "Good bye", "See you later"]

def thanksPhrases : List String := ["thanks", "thank you", "thanks so much", "ty"]

variable {σ : Type} [IdSource σ]

def send (activity : Activity) : StateM σ Node := do
  return .sendActivity (← Action.stemId "sendMessage") none activity

def cancelAll : StateM σ Node := do
  return .cancelAllDialogs (← Action.stemId "cancelAllDialogs")

def conversationStart (publisher : String) (botId : Uuid) (name : String) (agent : Agent) :
    StateM σ Dialog := do
  let message ← send (.lines [agent.greeting.getD (defaultStart name)])
  return .ofTrigger botId "Conversation Start"
    ("This system topic triggers when the agent receives an Activity indicating " ++
      "the beginning of a new conversation.")
    (Naming.topic publisher "ConversationStart") none (.onEvent .onConversationStart [message])

def greeting (publisher : String) (botId : Uuid) (agent : Agent) : StateM σ Dialog := do
  let message ← send (.lines [agent.greeting.getD defaultGreeting])
  let cancel ← cancelAll
  return .ofTrigger botId "Greeting" "This topic is triggered when the user greets the agent."
    (Naming.topic publisher "Greeting") none
    (.onPhrases .onRecognizedIntent "Greeting" greetingPhrases [message, cancel])

/-- Repeats the fallback message a few times, then hands over to the escalation topic. -/
def fallback (publisher : String) (botId : Uuid) (agent : Agent) : StateM σ Dialog := do
  let group ← Action.stemId "conditionGroup"
  let item ← Action.stemId "conditionItem"
  let retry ← send (.text (agent.fallbackMessage.getD defaultFallback))
  let handover := Node.beginDialog (← Action.bareId) (Naming.topic publisher "Escalate")
  return .ofTrigger botId "Fallback"
    ("This system topic triggers when the user's utterance does not match any existing topics.")
    (Naming.topic publisher "Fallback") none
    (.onEvent .onUnknownIntent
      [.conditionGroup group
        [⟨item, "=System.FallbackCount < " ++ toString retryLimit, [retry]⟩] [handover]])

def escalate (publisher : String) (botId : Uuid) (agent : Agent) : StateM σ Dialog := do
  let id ← Action.stemId "sendMessage"
  let message := Node.sendActivity id (some "Escalated")
    (.text (agent.escalationMessage.getD defaultEscalation))
  return .ofTrigger botId "Escalate"
    ("This system topic is triggered when the user indicates they would like " ++
      "to speak to a representative.")
    (Naming.topic publisher "Escalate") (some .cancelOthers)
    (.onPhrases .onEscalate "Escalate" escalatePhrases [message])

def goodbye (publisher : String) (botId : Uuid) : StateM σ Dialog := do
  let message ← send (.text "Goodbye! Have a great day.")
  let ending ← Action.stemId "endConversation"
  return .ofTrigger botId "Goodbye" "This topic triggers when the user says goodbye."
    (Naming.topic publisher "Goodbye") (some .cancelOthers)
    (.onPhrases .onRecognizedIntent "Goodbye" goodbyePhrases [message, .endConversation ending])

def thankYou (publisher : String) (botId : Uuid) : StateM σ Dialog := do
  let message ← send (.text "You're welcome.")
  return .ofTrigger botId "Thank you" "This topic triggers when the user says thank you."
    (Naming.topic publisher "Thankyou") none
    (.onPhrases .onRecognizedIntent "Thank you" thanksPhrases [message])

def onError (publisher : String) (botId : Uuid) : StateM σ Dialog := do
  let message ← send (.text "An error has occurred. Please try again.")
  let cancel ← cancelAll
  return .ofTrigger botId "On Error"
    "This system topic triggers when the agent encounters an error."
    (Naming.topic publisher "OnError") (some .latestContentAndCancelOthers)
    (.onEvent .onError [message, cancel])

def all (publisher : String) (botId : Uuid) (name : String) (agent : Agent) :
    StateM σ (List Dialog) := do
  return [← conversationStart publisher botId name agent, ← greeting publisher botId agent,
    ← fallback publisher botId agent, ← escalate publisher botId agent,
    ← goodbye publisher botId, ← thankYou publisher botId, ← onError publisher botId]

end Botwright.SystemTopics
